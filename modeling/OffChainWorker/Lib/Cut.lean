/-
  Cutting a list greedily.

  Elements are collected until the collected piece is full; then it is closed and the next one is
  begun, and what is left at the end makes the last piece (`cut`).  The pieces make up the list
  (`flatten_cut`), none is empty, each but the last is full, and none was full before its last
  element (`cut_pieces`).
-/

namespace Proc

variable {α : Type}

/-- Cut a list, with a piece already begun. -/
def cutFrom (full : List α → Bool) : List α → List α → List (List α)
  | piece, [] => if piece.isEmpty then [] else [piece]
  | piece, x :: xs =>
    if full (piece ++ [x]) then (piece ++ [x]) :: cutFrom full [] xs
    else cutFrom full (piece ++ [x]) xs

/-- Cut a list. -/
def cut (full : List α → Bool) (xs : List α) : List (List α) := cutFrom full [] xs

/-- No proper part at the front of a piece was full when its last element came. -/
def FullAtLast (full : List α → Bool) (piece : List α) : Prop :=
  ∀ q, q <+: piece → q ≠ [] → q ≠ piece → full q = false

/-- A piece that has not been closed: no part at its front is full. -/
def Unfilled (full : List α → Bool) (piece : List α) : Prop :=
  ∀ q, q <+: piece → q ≠ [] → full q = false

variable {full : List α → Bool}

theorem unfilled_nil : Unfilled full ([] : List α) :=
  fun _ hq hne => absurd (List.prefix_nil.mp hq) hne

theorem Unfilled.fullAtLast {piece : List α} (h : Unfilled full piece) : FullAtLast full piece :=
  fun q hq hne _ => h q hq hne

/-- A part of a piece with one more element is that piece or a part of the one before. -/
theorem prefix_snoc {q piece : List α} {x : α} (h : q <+: piece ++ [x]) (hne : q ≠ piece ++ [x]) :
    q <+: piece := by
  rcases List.prefix_concat_iff.mp h with heq | hq
  · exact absurd heq hne
  · exact hq

theorem Unfilled.snoc_fullAtLast {piece : List α} (h : Unfilled full piece) (x : α) :
    FullAtLast full (piece ++ [x]) :=
  fun q hq hne hproper => h q (prefix_snoc hq hproper) hne

theorem Unfilled.snoc {piece : List α} {x : α} (h : Unfilled full piece)
    (hx : full (piece ++ [x]) = false) : Unfilled full (piece ++ [x]) := by
  intro q hq hne
  by_cases heq : q = piece ++ [x]
  · rw [heq]
    exact hx
  · exact h q (prefix_snoc hq heq) hne

/-- What comes before the last element of a front part comes before the last element. -/
theorem mem_dropLast_of_prefix {l m : List α} (h : l <+: m) {x : α} (hx : x ∈ l.dropLast) :
    x ∈ m.dropLast := by
  obtain ⟨t, rfl⟩ := h
  by_cases ht : t = []
  · rw [ht, List.append_nil]
    exact hx
  · rw [List.dropLast_append_of_ne_nil ht]
    exact List.mem_append_left _ ((List.dropLast_sublist l).subset hx)

/-! ## The pieces -/

theorem flatten_cutFrom (piece xs : List α) : (cutFrom full piece xs).flatten = piece ++ xs := by
  induction xs generalizing piece with
  | nil =>
    rw [cutFrom]
    split
    · rename_i hempty
      rw [List.isEmpty_iff.mp hempty]
      rfl
    · simp
  | cons x xs ih =>
    rw [cutFrom]
    split
    · rw [List.flatten_cons, ih]
      simp
    · rw [ih]
      simp

/-- The pieces make up the list. -/
theorem flatten_cut (xs : List α) : (cut full xs).flatten = xs := flatten_cutFrom [] xs

theorem cutFrom_pieces {piece : List α} (h : Unfilled full piece) (xs : List α) :
    (∀ b ∈ cutFrom full piece xs, b ≠ [] ∧ FullAtLast full b) ∧
      ∀ b ∈ (cutFrom full piece xs).dropLast, full b = true := by
  induction xs generalizing piece with
  | nil =>
    rw [cutFrom]
    split
    · exact ⟨fun b hb => absurd hb List.not_mem_nil, fun b hb => absurd hb List.not_mem_nil⟩
    · rename_i hne
      refine ⟨fun b hb => ?_, fun b hb => absurd hb List.not_mem_nil⟩
      rw [List.mem_singleton.mp hb]
      exact ⟨fun hnil => hne (List.isEmpty_iff.mpr hnil), h.fullAtLast⟩
  | cons x xs ih =>
    rw [cutFrom]
    split
    · rename_i hfull
      obtain ⟨hpieces, hclosed⟩ := ih unfilled_nil
      constructor
      · intro b hb
        rcases List.mem_cons.mp hb with rfl | hb
        · exact ⟨by simp, h.snoc_fullAtLast x⟩
        · exact hpieces b hb
      · intro b hb
        cases hrest : cutFrom full [] xs with
        | nil =>
          rw [hrest] at hb
          exact absurd hb List.not_mem_nil
        | cons b' bs =>
          rw [hrest, List.dropLast_cons_cons] at hb
          rcases List.mem_cons.mp hb with rfl | hb
          · exact hfull
          · exact hclosed b (by rw [hrest]; exact hb)
    · rename_i hfull
      exact ih (h.snoc (Bool.eq_false_iff.mpr hfull))

/-- No piece is empty or was full before its last element, and each but the last is full. -/
theorem cut_pieces (full : List α → Bool) (xs : List α) :
    (∀ b ∈ cut full xs, b ≠ [] ∧ FullAtLast full b) ∧
      ∀ b ∈ (cut full xs).dropLast, full b = true :=
  cutFrom_pieces unfilled_nil xs

end Proc
