import Mathlib.Data.List.Find
import Mathlib.Data.List.Nodup
import SmartHome.Device.Configuration

/-!
# The order of the configuration does not matter

A configuration laid out section by section, as `gdevice.ini` is, is a list of `Section`s. Such a
configuration yields one record for each section, the last in front (`gdeviceTable_configuration`),
and the record depends on the section's entries only up to their order, as each field has one
(`record_calls_eq_of_perm`). A lookup takes the first record with the key, and with distinct keys
there is only one. So rearranging sections, and entries inside them, changes no lookup:
`foundRecord_eq_of_reordered`.
-/

set_option autoImplicit false

namespace SmartHome.Device

open SmartHome.Found

/-- A section: its name and its entries, each a name and a value.
Source: `ini/gdevice.ini`
Kind: D -/
structure Section where
  name : String
  entries : List (String × String)
deriving DecidableEq, Repr

/-- The calls of the handler for a section.
Source: `ini.h` `ini_handler`
Kind: D -/
def Section.calls (s : Section) : List IniCall := s.entries.map fun e => ⟨s.name, e.1, e.2⟩

/-- The calls for a configuration laid out section by section.
Source: `ini.h` `ini_handler`
Kind: D -/
def configuration (sections : List Section) : List IniCall := sections.flatMap Section.calls

/-- The key of a section: the value of its `key` entry, `0` if there is none or it cannot be read.
Source: `receive_interface.c` `gdevice_ini_handler`
Kind: D -/
def Section.keyValue (s : Section) : ℤ :=
  ((s.entries.find? fun e => e.1 = "key").bind fun e => sscanfX e.2).getD 0

/-- No section is empty or has a second one of its name, and no section has two entries of one name.
Source: none: the condition on the configuration. Kind: D -/
structure WellFormed (sections : List Section) : Prop where
  names : (sections.map Section.name).Nodup
  nonempty : ∀ s ∈ sections, s.entries ≠ []
  entries : ∀ s ∈ sections, (s.entries.map Prod.fst).Nodup

/-- The sections rearranged, and the entries inside each section.
Source: none: the condition on the configuration. Kind: D -/
def Reordered (sections sections' : List Section) : Prop :=
  ∃ moved, sections.Perm moved ∧
    List.Forall₂ (fun s s' => s.name = s'.name ∧ s.entries.Perm s'.entries) moved sections'

/-- The record that a lookup returns.
Source: `gdevice.c` `find_gdevice_by_key`
Kind: D -/
def foundRecord (pdevhead : List Gdevice) (key : ℤ) : Option Gdevice :=
  (findGdeviceByKey pdevhead key).bind (pdevhead[·]?)

theorem foundRecord_eq_find? (pdevhead : List Gdevice) (key : ℤ) :
    foundRecord pdevhead key = pdevhead.find? fun g => g.key = key := by
  unfold foundRecord
  induction pdevhead with
  | nil => rfl
  | cons pcur next ih =>
      by_cases hkey : pcur.key = key
      · simp [findGdeviceByKey, hkey]
      · rw [List.find?_cons_of_neg (by simpa using hkey), ← ih]
        simp only [findGdeviceByKey, hkey, if_false]
        cases findGdeviceByKey next key <;> simp

/-! ## One record for each section -/

theorem sectionName_of_mem_calls {s : Section} {c : IniCall} (hc : c ∈ s.calls) :
    c.sectionName = s.name := by
  obtain ⟨e, -, rfl⟩ := List.mem_map.mp hc
  rfl

/-- **A configuration laid out section by section yields one record for each section.**
Source: `receive_interface.c` `gdevice_ini_handler`
Kind: L -/
theorem gdeviceTable_configuration {sections : List Section} (hwf : WellFormed sections) :
    gdeviceTable (configuration sections) = (sections.map fun s => record s.name s.calls).reverse := by
  have hblocks : blocks IniCall.sectionName (configuration sections) =
      (sections.map fun s => (s.name, s.calls)).reverse := by
    obtain ⟨hnames, hnonempty, -⟩ := hwf
    induction sections using List.reverseRecOn with
    | nil => rfl
    | append_singleton sections s ih =>
        rw [List.map_append, List.nodup_append] at hnames
        have hold := ih hnames.1 fun s' hs' => hnonempty s' (List.mem_append_left _ hs')
        have hne : s.calls ≠ [] := by
          have := hnonempty s (List.mem_append_right _ List.mem_cons_self)
          simpa [Section.calls] using this
        have hnew : ∀ c ∈ configuration sections, c.sectionName ≠ s.name := by
          intro c hc
          obtain ⟨s', hs', hcs'⟩ := List.mem_flatMap.mp hc
          rw [sectionName_of_mem_calls hcs']
          exact hnames.2.2 _ (List.mem_map_of_mem hs') _ (by simp)
        have hconf : configuration (sections ++ [s]) = configuration sections ++ s.calls := by
          simp [configuration]
        rw [hconf, blocks_append_block _ hne (fun c hc => sectionName_of_mem_calls hc) hnew, hold]
        simp
  rw [gdeviceTable_eq, hblocks, List.map_reverse, List.map_map]
  rfl

/-- In a section without repeated names the order of the entries does not matter. -/
theorem record_calls_eq_of_perm {s s' : Section} (hname : s.name = s'.name)
    (hperm : s.entries.Perm s'.entries) (hnodup : (s.entries.map Prod.fst).Nodup) :
    record s.name s.calls = record s'.name s'.calls := by
  have hcalls : s.calls.Perm s'.calls := by
    unfold Section.calls
    rw [hname]
    exact hperm.map _
  apply Gdevice.ext_get
  · exact hname
  · intro f
    rw [get_record, get_record, lastOf_eq_of_perm (setting f) hcalls]
    intro a ha b hb hsa hsb
    obtain ⟨e, he, rfl⟩ := List.mem_map.mp ha
    obtain ⟨e', he', rfl⟩ := List.mem_map.mp hb
    have hfield : ∀ c : IniCall, (setting f c).isSome → c.name = f.name := by
      intro c hc
      unfold setting at hc
      split_ifs at hc with hn
      · exact hn
      · cases hc
    have hsame : e.1 = e'.1 := (hfield _ hsa).trans (hfield _ hsb).symm
    rw [List.inj_on_of_nodup_map hnodup he he' hsame]

theorem key_record_calls {s : Section} (hnodup : (s.entries.map Prod.fst).Nodup) :
    (record s.name s.calls).key = s.keyValue := by
  have hlast : lastOf (setting .key) s.calls =
      (s.entries.find? fun e => e.1 = "key").bind fun e => sscanfX e.2 := by
    have hread : ∀ e : String × String, setting .key ⟨s.name, e.1, e.2⟩ =
        if e.1 = "key" then sscanfX e.2 else none := fun _ => rfl
    unfold Section.calls
    rw [lastOf_map]
    simp only [hread]
    cases hfind : s.entries.find? fun e => e.1 = "key" with
    | none =>
        rw [List.find?_eq_none] at hfind
        rw [Option.bind_none, lastOf_eq_none_iff]
        intro e he
        rw [if_neg (by simpa using hfind e he)]
    | some e =>
        have hname : e.1 = "key" := by simpa using List.find?_some hfind
        have he := List.mem_of_find?_eq_some hfind
        -- the only entry that can speak is `e`
        have honly : ∀ e' ∈ s.entries, e'.1 = "key" → e' = e := fun e' he' hname' =>
          List.inj_on_of_nodup_map hnodup he' he (hname'.trans hname.symm)
        rw [Option.bind_some]
        cases hv : sscanfX e.2 with
        | none =>
            rw [lastOf_eq_none_iff]
            intro e' he'
            split_ifs with hname'
            · rw [honly e' he' hname', hv]
            · rfl
        | some v =>
            have hspeaks : (lastOf (fun e' : String × String =>
                if e'.1 = "key" then sscanfX e'.2 else none) s.entries).isSome := by
              rw [lastOf_isSome_iff]
              exact ⟨e, he, by rw [if_pos hname, hv]; rfl⟩
            obtain ⟨w, hw⟩ := Option.isSome_iff_exists.mp hspeaks
            obtain ⟨e', he', hw'⟩ := exists_mem_of_lastOf_eq_some _ hw
            split_ifs at hw' with hname'
            rw [honly e' he' hname', hv] at hw'
            rw [hw, hw']
  exact congrArg (·.getD 0) hlast

/-! ## Rearranging -/

theorem map_record_of_forall₂ {sections sections' : List Section}
    (h : List.Forall₂ (fun s s' => s.name = s'.name ∧ s.entries.Perm s'.entries) sections sections')
    (hentries : ∀ s ∈ sections, (s.entries.map Prod.fst).Nodup) :
    (sections.map fun s => record s.name s.calls) = sections'.map fun s => record s.name s.calls := by
  induction h with
  | nil => rfl
  | cons hs _ ih =>
      rw [List.map_cons, List.map_cons,
        record_calls_eq_of_perm hs.1 hs.2 (hentries _ List.mem_cons_self),
        ih fun s hs => hentries s (List.mem_cons_of_mem _ hs)]

theorem WellFormed.of_perm {sections moved : List Section} (h : WellFormed sections)
    (hperm : sections.Perm moved) : WellFormed moved where
  names := (hperm.map Section.name).nodup_iff.mp h.names
  nonempty s hs := h.nonempty s (hperm.mem_iff.mpr hs)
  entries s hs := h.entries s (hperm.mem_iff.mpr hs)

theorem WellFormed.of_forall₂ {moved sections' : List Section} (h : WellFormed moved)
    (hsame : List.Forall₂ (fun s s' => s.name = s'.name ∧ s.entries.Perm s'.entries) moved sections') :
    WellFormed sections' := by
  have hnames : moved.map Section.name = sections'.map Section.name := by
    clear h
    induction hsame with
    | nil => rfl
    | cons hs _ ih => rw [List.map_cons, List.map_cons, hs.1, ih]
  have hmem : ∀ s' ∈ sections', ∃ s ∈ moved, s.entries.Perm s'.entries := by
    clear h hnames
    induction hsame with
    | nil => simp
    | cons hs _ ih =>
        intro s' hs'
        rcases List.mem_cons.mp hs' with rfl | hs'
        · exact ⟨_, List.mem_cons_self, hs.2⟩
        · obtain ⟨s, hmem, hperm⟩ := ih s' hs'
          exact ⟨s, List.mem_cons_of_mem _ hmem, hperm⟩
  refine ⟨hnames ▸ h.names, fun s' hs' => ?_, fun s' hs' => ?_⟩
  · obtain ⟨s, hs, hperm⟩ := hmem s' hs'
    intro hempty
    rw [hempty] at hperm
    exact h.nonempty s hs hperm.eq_nil
  · obtain ⟨s, hs, hperm⟩ := hmem s' hs'
    exact (hperm.map Prod.fst).nodup_iff.mp (h.entries s hs)

/-- **The order of the configuration does not matter**: rearranging the sections, and the entries inside
them, of a configuration whose sections have distinct names, distinct keys and no repeated entries
leaves as many records as sections, and changes no lookup.
Source: `receive_interface.c` `gdevice_ini_handler`, `gdevice.c` `find_gdevice_by_key`
Kind: P -/
theorem foundRecord_eq_of_reordered {sections sections' : List Section} (hwf : WellFormed sections)
    (hre : Reordered sections sections') (hkeys : (sections.map Section.keyValue).Nodup) :
    (gdeviceTable (configuration sections)).length = sections.length ∧
      (gdeviceTable (configuration sections')).length = sections'.length ∧
      ∀ key, foundRecord (gdeviceTable (configuration sections)) key =
        foundRecord (gdeviceTable (configuration sections')) key := by
  obtain ⟨moved, hperm, hsame⟩ := hre
  have hmoved := hwf.of_perm hperm
  have hwf' := hmoved.of_forall₂ hsame
  rw [gdeviceTable_configuration hwf, gdeviceTable_configuration hwf',
    ← map_record_of_forall₂ hsame hmoved.entries]
  refine ⟨by simp, by simpa using hsame.length_eq, fun key => ?_⟩
  rw [foundRecord_eq_find?, foundRecord_eq_find?]
  apply List.find?_eq_find?_of_perm
  · exact (List.reverse_perm _).trans ((hperm.map _).trans (List.reverse_perm _).symm)
  · -- records with one key are the record of one section
    rintro g ⟨hg, hgkey⟩ g' ⟨hg', hgkey'⟩
    obtain ⟨s, hs, rfl⟩ := List.mem_map.mp (List.mem_reverse.mp hg)
    obtain ⟨s', hs', rfl⟩ := List.mem_map.mp (List.mem_reverse.mp hg')
    have hkey : s.keyValue = s'.keyValue := by
      rw [← key_record_calls (hwf.entries s hs), ← key_record_calls (hwf.entries s' hs')]
      exact (of_decide_eq_true hgkey).trans (of_decide_eq_true hgkey').symm
    rw [List.inj_on_of_nodup_map hkeys hs hs' hkey]

/-- Two sections. Source: none: a configuration. Kind: D -/
def lockFan : List Section :=
  [⟨"lock", [("key", "0x44"), ("gpio_pin", "7")]⟩, ⟨"fan", [("key", "0x43"), ("gpio_mode", "OUTPUT")]⟩]

/-- The same two in the other order, the lock's entries turned around.
Source: none: a configuration. Kind: D -/
def fanLock : List Section :=
  [⟨"fan", [("key", "0x43"), ("gpio_mode", "OUTPUT")]⟩, ⟨"lock", [("gpio_pin", "7"), ("key", "0x44")]⟩]

theorem reordered_lockFan : Reordered lockFan fanLock := by
  refine ⟨lockFan.reverse, (List.reverse_perm _).symm, ?_⟩
  exact .cons ⟨rfl, List.Perm.refl _⟩ (.cons ⟨rfl, List.Perm.swap ..⟩ .nil)

/-- Both yield two records, and the lock's key finds the same record.
Source: none: a configuration. Kind: L -/
theorem foundRecord_lockFan :
    (gdeviceTable (configuration lockFan)).length = lockFan.length ∧
      (gdeviceTable (configuration fanLock)).length = fanLock.length ∧
      ∀ key, foundRecord (gdeviceTable (configuration lockFan)) key =
        foundRecord (gdeviceTable (configuration fanLock)) key := by
  apply foundRecord_eq_of_reordered _ reordered_lockFan
  · decide
  · exact ⟨by decide, by decide, by decide⟩

end SmartHome.Device
