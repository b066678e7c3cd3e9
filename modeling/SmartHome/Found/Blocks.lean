import Mathlib.Data.List.Basic
import Mathlib.Data.List.Induction

/-!
# Histories cut into blocks

The entries of a history have a key. `blocks key l` cuts the history into its runs of entries of one
key: a block is the key and the entries, oldest first, and the newest block stands in front. The
last block is the open one; an entry of another key closes it and opens a new block, also where an
older block has that key already.

A key has one block, with all its entries, exactly when no entry of another key stands between two
of its own: `nodup_keys_iff` for the whole history, `filter_eq_of_mem_blocks` for one block.
-/

set_option autoImplicit false

namespace SmartHome.Found

open scoped List

variable {α κ : Type*} (key : α → κ)

/-- No entry of another key stands between two entries of one key.
Source: none: infrastructure. Kind: D -/
def NotReopened (l : List α) : Prop := ∀ a b c, [a, b, c] <+ l → key a = key c → key b = key a

theorem sublist_concat_iff {l r : List α} {x : α} :
    r <+ l ++ [x] ↔ r <+ l ∨ ∃ r', r = r' ++ [x] ∧ r' <+ l := by
  rw [List.sublist_append_iff]
  constructor
  · rintro ⟨r₁, r₂, rfl, h₁, h₂⟩
    rcases List.sublist_singleton.mp h₂ with rfl | rfl
    · left
      simpa using h₁
    · exact Or.inr ⟨r₁, rfl, h₁⟩
  · rintro (h | ⟨r', rfl, h⟩)
    · exact ⟨r, [], by simp, h, List.nil_sublist _⟩
    · exact ⟨r', [x], rfl, h, List.Sublist.refl _⟩

theorem notReopened_concat {l : List α} {x : α} :
    NotReopened key (l ++ [x]) ↔
      NotReopened key l ∧ ∀ a b, [a, b] <+ l → key a = key x → key b = key a := by
  constructor
  · intro h
    refine ⟨fun a b c habc => ?_, fun a b hab => ?_⟩
    · exact h a b c (habc.trans (List.sublist_append_left l [x]))
    · exact h a b x (hab.append (List.Sublist.refl [x]))
  · rintro ⟨hl, hx⟩ a b c habc hac
    rcases sublist_concat_iff.mp habc with hold | ⟨r, hr, hrl⟩
    · exact hl a b c hold hac
    · obtain ⟨rfl, rfl⟩ : r = [a, b] ∧ x = c := by
        have hsplit : [a, b] ++ [c] = r ++ [x] := hr
        obtain ⟨hab, hc⟩ := List.append_inj' hsplit rfl
        exact ⟨hab.symm, (List.singleton_inj.mp hc).symm⟩
      exact hx a b hrl hac

/-! ## The blocks -/

variable [DecidableEq κ]

/-- One more entry: it joins the open block if it has its key, and opens a block otherwise.
Source: none: infrastructure. Kind: D -/
def addToBlocks (bs : List (κ × List α)) (a : α) : List (κ × List α) :=
  match bs with
  | [] => [(key a, [a])]
  | b :: bs => if key a = b.1 then (b.1, b.2 ++ [a]) :: bs else (key a, [a]) :: b :: bs

/-- The blocks of a history, newest first.
Source: none: infrastructure. Kind: D -/
def blocks (l : List α) : List (κ × List α) := l.foldl (addToBlocks key) []

@[simp] theorem blocks_nil : blocks key ([] : List α) = [] := rfl

theorem blocks_concat (l : List α) (a : α) :
    blocks key (l ++ [a]) = addToBlocks key (blocks key l) a := by
  simp [blocks]

/-- The blocks, oldest first, make up the history. -/
theorem flatMap_blocks (l : List α) : (blocks key l).reverse.flatMap Prod.snd = l := by
  induction l using List.reverseRecOn with
  | nil => rfl
  | append_singleton l a ih =>
      rw [blocks_concat]
      cases hbs : blocks key l with
      | nil =>
          rw [hbs] at ih
          rw [← ih]
          rfl
      | cons b bs =>
          rw [hbs] at ih
          unfold addToBlocks
          by_cases hkey : key a = b.1
          · simp only [hkey, if_true]
            rw [← ih]
            simp
          · simp only [hkey, if_false]
            rw [← ih]
            simp

/-- A block is not empty, and its entries have its key. -/
theorem block_spec {l : List α} {b : κ × List α} (hb : b ∈ blocks key l) :
    b.2 ≠ [] ∧ ∀ a ∈ b.2, key a = b.1 := by
  induction l using List.reverseRecOn generalizing b with
  | nil => simp at hb
  | append_singleton l a ih =>
      rw [blocks_concat] at hb
      cases hbs : blocks key l with
      | nil =>
          simp only [hbs, addToBlocks, List.mem_singleton] at hb
          subst hb
          simp
      | cons b' bs =>
          rw [hbs] at ih
          simp only [hbs, addToBlocks] at hb
          split_ifs at hb with hkey
          · rcases List.mem_cons.mp hb with rfl | hold
            · refine ⟨by simp, fun c hc => ?_⟩
              rcases List.mem_append.mp hc with hc | hc
              · exact (ih List.mem_cons_self).2 c hc
              · rw [List.mem_singleton.mp hc, hkey]
            · exact ih (List.mem_cons_of_mem _ hold)
          · rcases List.mem_cons.mp hb with rfl | hold
            · simp
            · exact ih hold

/-- The keys of the blocks are those of the entries. -/
theorem mem_keys_blocks {l : List α} {k : κ} :
    k ∈ (blocks key l).map Prod.fst ↔ ∃ a ∈ l, key a = k := by
  constructor
  · intro hk
    obtain ⟨b, hb, rfl⟩ := List.mem_map.mp hk
    obtain ⟨hne, hkey⟩ := block_spec key hb
    obtain ⟨a, ha⟩ := List.exists_mem_of_ne_nil _ hne
    refine ⟨a, ?_, hkey a ha⟩
    rw [← flatMap_blocks key l]
    exact List.mem_flatMap.mpr ⟨b, List.mem_reverse.mpr hb, ha⟩
  · rintro ⟨a, ha, rfl⟩
    rw [← flatMap_blocks key l] at ha
    obtain ⟨b, hb, hab⟩ := List.mem_flatMap.mp ha
    have hb' := List.mem_reverse.mp hb
    exact List.mem_map.mpr ⟨b, hb', ((block_spec key hb').2 a hab).symm⟩

/-- The open block has the key of the newest entry. -/
theorem exists_concat_of_blocks_eq_cons {l : List α} {b : κ × List α} {bs : List (κ × List α)}
    (h : blocks key l = b :: bs) : ∃ l' z, l = l' ++ [z] ∧ key z = b.1 := by
  induction l using List.reverseRecOn with
  | nil => simp at h
  | append_singleton l a _ =>
      refine ⟨l, a, rfl, ?_⟩
      rw [blocks_concat] at h
      cases hbs : blocks key l with
      | nil =>
          simp only [hbs, addToBlocks, List.cons.injEq] at h
          rw [← h.1]
      | cons b' bs' =>
          simp only [hbs, addToBlocks] at h
          split_ifs at h with hkey
          · rw [← (List.cons.inj h).1]
            exact hkey
          · rw [← (List.cons.inj h).1]

/-- A run of entries of one key is a block of its own, unless the open block has the key. -/
theorem blocks_append_of_head_ne {l block : List α} {k : κ} (hne : block ≠ [])
    (hkey : ∀ a ∈ block, key a = k) (hnew : ∀ b ∈ (blocks key l).head?, b.1 ≠ k) :
    blocks key (l ++ block) = (k, block) :: blocks key l := by
  induction block using List.reverseRecOn with
  | nil => exact absurd rfl hne
  | append_singleton block a ih =>
      have hak : key a = k := hkey a (List.mem_append_right _ List.mem_cons_self)
      rw [← List.append_assoc, blocks_concat]
      by_cases hempty : block = []
      · subst hempty
        rw [List.append_nil, List.nil_append]
        cases hbs : blocks key l with
        | nil => simp only [addToBlocks, hak]
        | cons b bs =>
            have hother : ¬ k = b.1 := fun hkb => hnew b (by rw [hbs]; rfl) hkb.symm
            simp only [addToBlocks, hak, hother, if_false]
      · rw [ih hempty fun c hc => hkey c (List.mem_append_left _ hc)]
        simp only [addToBlocks, hak, if_true]

/-- A run of entries of a new key is a block of its own. -/
theorem blocks_append_block {l block : List α} {k : κ} (hne : block ≠ []) (hkey : ∀ a ∈ block, key a = k)
    (hnew : ∀ a ∈ l, key a ≠ k) : blocks key (l ++ block) = (k, block) :: blocks key l := by
  apply blocks_append_of_head_ne key hne hkey
  intro b hb
  obtain ⟨bs, hbs⟩ := List.head?_eq_some_iff.mp hb
  obtain ⟨l', z, rfl, hz⟩ := exists_concat_of_blocks_eq_cons key hbs
  rw [← hz]
  exact hnew z (List.mem_append_right _ List.mem_cons_self)

/-- Two neighbours have different keys. Source: none: infrastructure. Kind: L -/
theorem isChain_keys_blocks (l : List α) : ((blocks key l).map Prod.fst).IsChain (· ≠ ·) := by
  induction l using List.reverseRecOn with
  | nil => exact .nil
  | append_singleton l a ih =>
      rw [blocks_concat]
      cases hbs : blocks key l with
      | nil => exact .singleton _
      | cons b bs =>
          rw [hbs] at ih
          simp only [addToBlocks]
          split_ifs with hkey
          · exact ih
          · exact .cons_cons hkey ih

/-! ## One block for each key -/

/-- **When each key has one block.**
Source: none: infrastructure. Kind: P -/
theorem nodup_keys_iff {l : List α} :
    ((blocks key l).map Prod.fst).Nodup ↔ NotReopened key l := by
  induction l using List.reverseRecOn with
  | nil =>
      refine iff_of_true List.nodup_nil fun a b c h => ?_
      simp at h
  | append_singleton l x ih =>
      rw [notReopened_concat, blocks_concat, ← ih]
      cases hbs : blocks key l with
      | nil =>
          obtain rfl : l = [] := by
            rw [← flatMap_blocks key l, hbs]
            rfl
          simp [addToBlocks]
      | cons b bs =>
          obtain ⟨l', z, rfl, hz⟩ := exists_concat_of_blocks_eq_cons key hbs
          unfold addToBlocks
          by_cases hkey : key x = b.1
          · -- the entry joins the open block
            simp only [hkey, if_true, List.map_cons]
            refine (and_iff_left_of_imp fun hnodup a c hac hax => ?_).symm
            have hl : NotReopened key (l' ++ [z]) := by
              rw [← ih, hbs]
              exact hnodup
            rcases sublist_concat_iff.mp hac with hold | ⟨r, hr, -⟩
            · exact hl a c z (hold.append (List.Sublist.refl [z])) (hax.trans hz.symm)
            · obtain rfl : z = c := by
                have hsplit : [a] ++ [c] = r ++ [z] := hr
                exact (List.singleton_inj.mp (List.append_inj' hsplit rfl).2).symm
              exact hz.trans hax.symm
          · -- the entry opens a block; its key must be new
            have hnew : (∀ a c, [a, c] <+ l' ++ [z] → key a = key x → key c = key a) ↔
                key x ∉ (b :: bs).map Prod.fst := by
              rw [← hbs, mem_keys_blocks]
              constructor
              · rintro h ⟨a, ha, hax⟩
                rcases List.mem_append.mp ha with ha | ha
                · have haz : [a, z] <+ l' ++ [z] :=
                    (List.singleton_sublist.mpr ha).append (List.Sublist.refl [z])
                  exact hkey (hax.symm.trans ((h a z haz hax).symm.trans hz))
                · rw [List.mem_singleton.mp ha, hz] at hax
                  exact hkey hax.symm
              · intro h a c hac hax
                exact absurd ⟨a, hac.subset List.mem_cons_self, hax⟩ h
            simp only [hkey, if_false, List.map_cons, List.nodup_cons (a := key x)]
            rw [hnew, and_comm]
            rfl

/-- Blocks of other keys have no entry of this one. -/
theorem filter_flatMap_eq_nil {l : List α} {bs : List (κ × List α)} (hsub : ∀ c ∈ bs, c ∈ blocks key l)
    {k : κ} (hk : ∀ c ∈ bs, c.1 ≠ k) : (bs.flatMap Prod.snd).filter (fun a => key a = k) = [] := by
  rw [List.filter_eq_nil_iff]
  intro a ha hak
  obtain ⟨c, hc, hac⟩ := List.mem_flatMap.mp ha
  have hkey : key a = c.1 := (block_spec key (hsub c hc)).2 a hac
  exact hk c hc (hkey.symm.trans (of_decide_eq_true hak))

/-- The block of a key with one block has all its entries. -/
theorem filter_eq_of_mem_blocks {l : List α} (h : ((blocks key l).map Prod.fst).Nodup)
    {b : κ × List α} (hb : b ∈ blocks key l) : l.filter (fun a => key a = b.1) = b.2 := by
  obtain ⟨newer, older, hbs⟩ := List.append_of_mem hb
  have hmem : ∀ c ∈ newer ++ older, c ∈ blocks key l := by
    intro c hc
    rw [hbs]
    rcases List.mem_append.mp hc with hc | hc
    · exact List.mem_append_left _ hc
    · exact List.mem_append_right _ (List.mem_cons_of_mem _ hc)
  have hother : ∀ c ∈ newer ++ older, c.1 ≠ b.1 := by
    intro c hc hsame
    rw [hbs, List.perm_middle.map Prod.fst |>.nodup_iff, List.map_cons, List.nodup_cons] at h
    exact h.1 (List.mem_map.mpr ⟨c, hc, hsame⟩)
  have hold : (older.reverse.flatMap Prod.snd).filter (fun a => key a = b.1) = [] :=
    filter_flatMap_eq_nil key (fun c hc => hmem c (by simp_all)) fun c hc => hother c (by simp_all)
  have hnew : (newer.reverse.flatMap Prod.snd).filter (fun a => key a = b.1) = [] :=
    filter_flatMap_eq_nil key (fun c hc => hmem c (by simp_all)) fun c hc => hother c (by simp_all)
  have hown : b.2.filter (fun a => key a = b.1) = b.2 := by
    rw [List.filter_eq_self]
    intro a ha
    exact decide_eq_true ((block_spec key hb).2 a ha)
  calc l.filter (fun a => key a = b.1)
      = ((blocks key l).reverse.flatMap Prod.snd).filter (fun a => key a = b.1) := by
        rw [flatMap_blocks]
    _ = b.2 := by
        rw [hbs, List.reverse_append, List.reverse_cons, List.flatMap_append, List.flatMap_append,
          List.filter_append, List.filter_append, hold, hnew]
        simpa using hown

end SmartHome.Found
