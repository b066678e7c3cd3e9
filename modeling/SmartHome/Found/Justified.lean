import Mathlib.Data.List.Induction

/-!
# Histories whose entries are justified by what came before them

`Justified ok trace` says that every entry `e` of the history `trace` meets `ok earlier e`, where
`earlier` is the part of the history before that entry: a call is justified by the permission
obtained before it, not by one obtained later. A history grows at its end
(`Justified.append`); what is already there keeps its justification, and a new entry may use all
of it.
-/

set_option autoImplicit false

namespace SmartHome.Found

variable {α : Type*}

/-- Every entry of the history is justified by the entries before it.
Source: none: infrastructure. Kind: D -/
def Justified (ok : List α → α → Prop) (trace : List α) : Prop :=
  ∀ earlier e later, trace = earlier ++ e :: later → ok earlier e

variable {ok : List α → α → Prop}

theorem Justified.nil : Justified ok [] := by
  intro earlier e later h
  simp at h

/-- **A history grows**: the new entries are justified by the old history, and a longer past justifies
at least as much.
Source: none: infrastructure. Kind: P -/
theorem Justified.append (hmono : ∀ l m e, ok l e → ok (l ++ m) e) {trace new : List α}
    (h : Justified ok trace) (hnew : ∀ e ∈ new, ok trace e) : Justified ok (trace ++ new) := by
  intro earlier e later heq
  rcases List.append_eq_append_iff.mp heq with ⟨added, hearlier, hnewEq⟩ | ⟨rest, htrace, hrest⟩
  · -- the entry is one of the new ones
    rw [hearlier]
    apply hmono
    apply hnew
    rw [hnewEq]
    simp
  · cases rest with
    | nil =>
        have htrace' : trace = earlier := by simpa using htrace
        have hmem : e ∈ new := by
          simp only [List.nil_append] at hrest
          rw [← hrest]
          exact List.mem_cons_self
        exact htrace' ▸ hnew e hmem
    | cons e' rest =>
        obtain ⟨rfl, -⟩ := List.cons.inj hrest
        exact h earlier e rest htrace

/-- The newest entry is justified by all the others. Source: none: infrastructure. Kind: L -/
theorem justified_concat {trace : List α} {e : α} :
    Justified ok (trace ++ [e]) ↔ Justified ok trace ∧ ok trace e := by
  constructor
  · intro h
    refine ⟨fun earlier a later htrace => ?_, h trace e [] rfl⟩
    apply h earlier a (later ++ [e])
    rw [htrace, List.append_assoc, List.cons_append]
  · rintro ⟨htrace, he⟩ earlier a later heq
    rcases List.eq_nil_or_concat later with rfl | ⟨later, b, rfl⟩
    · obtain ⟨rfl, ha⟩ := List.append_inj' heq rfl
      obtain rfl : e = a := by simpa using ha
      exact he
    · rw [List.concat_eq_append, ← List.cons_append, ← List.append_assoc] at heq
      exact htrace earlier a later (List.append_inj' heq rfl).1

/-- Where every other entry needs no justification, only the one in the middle does. -/
theorem justified_append_cons_iff {before after : List α} {e : α}
    (hbefore : ∀ a ∈ before, ∀ l, ok l a) (hafter : ∀ a ∈ after, ∀ l, ok l a) :
    Justified ok (before ++ e :: after) ↔ ok before e := by
  refine ⟨fun h => h before e after rfl, fun he earlier a later heq => ?_⟩
  rcases List.append_eq_append_iff.mp heq with ⟨added, rfl, hadded⟩ | ⟨rest, rfl, hrest⟩
  · cases added with
    | nil =>
        obtain ⟨rfl, -⟩ := List.cons.inj hadded
        simpa using he
    | cons b added =>
        obtain ⟨-, rfl⟩ := List.cons.inj hadded
        exact hafter a (by simp) _
  · cases rest with
    | nil =>
        obtain ⟨rfl, -⟩ := List.cons.inj hrest
        simpa using he
    | cons b rest =>
        obtain ⟨rfl, -⟩ := List.cons.inj hrest
        exact hbefore a (by simp) _

/-- A history none of whose entries needs a justification. -/
theorem Justified.of_forall {trace : List α} (h : ∀ e ∈ trace, ∀ l, ok l e) : Justified ok trace := by
  rintro earlier e later rfl
  exact h e (by simp) earlier

/-- **Histories one after the other**, where a justification stands whatever came before its history.
Source: none: infrastructure. Kind: P -/
theorem Justified.append_left (hleft : ∀ l m e, ok m e → ok (l ++ m) e) {trace more : List α}
    (h : Justified ok trace) (hmore : Justified ok more) : Justified ok (trace ++ more) := by
  induction more using List.reverseRecOn with
  | nil => simpa using h
  | append_singleton more e ih =>
      obtain ⟨hmore, he⟩ := justified_concat.mp hmore
      rw [← List.append_assoc]
      exact justified_concat.mpr ⟨ih hmore, hleft trace more e he⟩

/-- The same for any number of histories. Source: none: infrastructure. Kind: C -/
theorem Justified.flatMap {β : Type*} (hleft : ∀ l m e, ok m e → ok (l ++ m) e) {f : β → List α}
    {bs : List β} (h : ∀ b ∈ bs, Justified ok (f b)) : Justified ok (bs.flatMap f) := by
  induction bs with
  | nil => exact Justified.nil
  | cons b bs ih =>
      have hrest := ih fun b' hb' => h b' (List.mem_cons_of_mem _ hb')
      exact (h b List.mem_cons_self).append_left hleft hrest

end SmartHome.Found
