import Mathlib.Data.List.Basic

/-!
# A stream read in bounded pieces

A read takes elements from the front of a stream until it has taken one at which it stops, or has
no room left (`chunk`). `chunks` is the sequence of such reads down to the end of the stream.

Each piece fits into the room (`length_le_of_mem_chunks`), and reading composes wherever the first
part ends in a stop (`chunks_append`): a piece never reaches across one.
-/

set_option autoImplicit false

namespace SmartHome.Found

variable {α : Type*} (stop : α → Bool)

/-- One read, with room for `n` elements: the piece and what is left.
Source: none: infrastructure. Kind: D -/
def chunk : ℕ → List α → List α × List α
  | 0, l => ([], l)
  | _ + 1, [] => ([], [])
  | n + 1, c :: cs =>
      if stop c then ([c], cs) else (c :: (chunk n cs).1, (chunk n cs).2)

theorem chunk_append_chunk (n : ℕ) (l : List α) : (chunk stop n l).1 ++ (chunk stop n l).2 = l := by
  induction l generalizing n with
  | nil => cases n <;> rfl
  | cons c cs ih =>
      cases n with
      | zero => rfl
      | succ n =>
          rw [chunk]
          split_ifs
          · rfl
          · rw [List.cons_append, ih n]

theorem length_chunk_le (n : ℕ) (l : List α) : (chunk stop n l).1.length ≤ n := by
  induction l generalizing n with
  | nil => cases n <;> simp [chunk]
  | cons c cs ih =>
      cases n with
      | zero => simp [chunk]
      | succ n =>
          rw [chunk]
          split_ifs
          · simp
          · simpa using ih n

/-- A read with room takes something. Source: none: infrastructure. Kind: L -/
theorem length_chunk_snd_lt {n : ℕ} {l : List α} (hn : 0 < n) (hl : l ≠ []) :
    (chunk stop n l).2.length < l.length := by
  obtain ⟨n, rfl⟩ := Nat.exists_eq_succ_of_ne_zero (Nat.ne_of_gt hn)
  obtain ⟨c, cs, rfl⟩ := List.exists_cons_of_ne_nil hl
  rw [chunk]
  split_ifs
  · simp
  · have htotal := congrArg List.length (chunk_append_chunk stop n cs)
    simp only [List.length_append, List.length_cons] at htotal ⊢
    omega

/-- The reads down to the end of the stream. Source: none: infrastructure. Kind: D -/
def chunks (n : ℕ) (l : List α) : List (List α) :=
  if _h : 0 < n ∧ l ≠ [] then (chunk stop n l).1 :: chunks n (chunk stop n l).2 else []
termination_by l.length
decreasing_by exact length_chunk_snd_lt stop _h.1 _h.2

variable {n : ℕ} {l : List α}

@[simp] theorem chunks_nil (n : ℕ) : chunks stop n ([] : List α) = [] := by
  rw [chunks, dif_neg fun h => h.2 rfl]

theorem chunks_of_ne_nil (hn : 0 < n) (hl : l ≠ []) :
    chunks stop n l = (chunk stop n l).1 :: chunks stop n (chunk stop n l).2 := by
  rw [chunks, dif_pos ⟨hn, hl⟩]

/-- Induction along the reads. Source: none: infrastructure. Kind: P -/
theorem chunks_induction {P : List α → Prop} (hn : 0 < n) (hnil : P [])
    (hread : ∀ l, l ≠ [] → P (chunk stop n l).2 → P l) (l : List α) : P l := by
  induction hlen : l.length using Nat.strongRecOn generalizing l with
  | ind k ih =>
      by_cases hl : l = []
      · rw [hl]
        exact hnil
      · apply hread l hl
        have hlt := length_chunk_snd_lt stop hn hl
        exact ih _ (hlen ▸ hlt) _ rfl

/-- **Each piece fits.** Source: none: infrastructure. Kind: P -/
theorem length_le_of_mem_chunks (hn : 0 < n) {c : List α} (hc : c ∈ chunks stop n l) :
    c.length ≤ n := by
  induction l using chunks_induction stop hn with
  | hnil => simp at hc
  | hread l hl ih =>
      rw [chunks_of_ne_nil stop hn hl, List.mem_cons] at hc
      rcases hc with rfl | hc
      · exact length_chunk_le stop n l
      · exact ih hc

/-! ## Reading up to a stop -/

variable {stop}

/-- A line that fits is one piece, its stop included. Source: none: infrastructure. Kind: L -/
theorem chunk_line {x : α} {line : List α} (hline : ∀ c ∈ line, stop c = false) (hx : stop x = true)
    (hlen : line.length < n) (rest : List α) :
    chunk stop n (line ++ x :: rest) = (line ++ [x], rest) := by
  induction line generalizing n with
  | nil =>
      obtain ⟨n, rfl⟩ := Nat.exists_eq_succ_of_ne_zero (Nat.ne_of_gt hlen)
      rw [List.nil_append, chunk, if_pos hx]
      rfl
  | cons c cs ih =>
      obtain ⟨n, rfl⟩ := Nat.exists_eq_succ_of_ne_zero (Nat.ne_of_gt (Nat.zero_lt_of_lt hlen))
      have hc : ¬ stop c = true := by simp [hline c List.mem_cons_self]
      rw [List.cons_append, chunk, if_neg hc,
        ih (fun d hd => hline d (List.mem_cons_of_mem _ hd)) (by simpa using hlen)]
      rfl

/-- **Lines that fit are read line by line**, whatever comes behind them.
Source: none: infrastructure. Kind: P -/
theorem chunks_lines {x : α} (hx : stop x = true) {lines : List (List α)}
    (hline : ∀ line ∈ lines, (∀ c ∈ line, stop c = false) ∧ line.length < n) (rest : List α) :
    chunks stop n ((lines.flatMap fun line => line ++ [x]) ++ rest) =
      (lines.map fun line => line ++ [x]) ++ chunks stop n rest := by
  induction lines with
  | nil => rfl
  | cons line lines ih =>
      obtain ⟨hstop, hlen⟩ := hline line List.mem_cons_self
      have hrest := ih fun line' h => hline line' (List.mem_cons_of_mem _ h)
      rw [List.flatMap_cons, List.map_cons, List.append_assoc, List.append_assoc,
        List.singleton_append, chunks_of_ne_nil stop (Nat.zero_lt_of_lt hlen) (by simp),
        chunk_line hstop hx hlen, hrest, List.cons_append]

/-- Without a stop all there is room for is one piece. Source: none: infrastructure. Kind: L -/
theorem chunk_open {line : List α} (hline : ∀ c ∈ line, stop c = false) (hlen : line.length ≤ n) :
    chunk stop n line = (line, []) := by
  induction line generalizing n with
  | nil => cases n <;> rfl
  | cons c cs ih =>
      obtain ⟨n, rfl⟩ := Nat.exists_eq_succ_of_ne_zero (Nat.ne_of_gt (Nat.zero_lt_of_lt hlen))
      have hc : ¬ stop c = true := by simp [hline c List.mem_cons_self]
      rw [chunk, if_neg hc, ih (fun d hd => hline d (List.mem_cons_of_mem _ hd)) (by simpa using hlen)]

/-- A last line need not end in a stop. Source: none: infrastructure. Kind: L -/
theorem chunks_open {line : List α} (hn : 0 < n) (hline : ∀ c ∈ line, stop c = false)
    (hlen : line.length ≤ n) : chunks stop n line = if line = [] then [] else [line] := by
  split_ifs with hnil
  · rw [hnil, chunks_nil]
  · rw [chunks_of_ne_nil stop hn hnil, chunk_open hline hlen, chunks_nil]

/-- A piece has no stop before its end. Source: none: infrastructure. Kind: L -/
theorem not_stop_of_mem_dropLast_chunk (n : ℕ) (l : List α) :
    ∀ c ∈ (chunk stop n l).1.dropLast, stop c = false := by
  induction l generalizing n with
  | nil => cases n <;> simp [chunk]
  | cons c cs ih =>
      cases n with
      | zero => simp [chunk]
      | succ n =>
          rw [chunk]
          split_ifs with hc
          · simp
          · intro d hd
            cases hpiece : (chunk stop n cs).1 with
            | nil => simp [hpiece] at hd
            | cons e es =>
                simp only [hpiece, List.dropLast_cons_cons, List.mem_cons] at hd
                rcases hd with rfl | hd
                · simpa using hc
                · apply ih n d
                  rwa [hpiece]

theorem not_stop_of_mem_dropLast_of_mem_chunks {piece : List α} (hn : 0 < n)
    (hpiece : piece ∈ chunks stop n l) : ∀ c ∈ piece.dropLast, stop c = false := by
  induction l using chunks_induction stop hn with
  | hnil => simp at hpiece
  | hread l hl ih =>
      rw [chunks_of_ne_nil stop hn hl, List.mem_cons] at hpiece
      rcases hpiece with rfl | hpiece
      · exact not_stop_of_mem_dropLast_chunk n l
      · exact ih hpiece

end SmartHome.Found
