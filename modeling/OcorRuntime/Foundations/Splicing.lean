import Mathlib

/-! Texts with spans replaced, frames that each end in a mark, and the longest prefix of a list that
fits a budget. -/
namespace OcorRuntime
set_option autoImplicit false
set_option maxHeartbeats 250000

/-! ## Spans -/

/-- The positions from `start` on, up to `stop`. -/
structure Span where
  start : ℕ
  stop : ℕ
deriving DecidableEq

section Spans
variable {α : Type}

/-- In order and apart, none of them empty, from `cursor` on and inside a text of the length. -/
def Apart (length : ℕ) : ℕ → List Span → Prop
  | _, [] => True
  | cursor, span :: rest => cursor ≤ span.start ∧ span.start < span.stop ∧ span.stop ≤ length ∧ Apart length span.stop rest

/-- `text[start:stop]`. -/
def between (text : List α) (start stop : ℕ) : List α := (text.take stop).drop start

/-- What is outside the spans, piece by piece. -/
def gaps (text : List α) : ℕ → List Span → List (List α)
  | cursor, [] => [text.drop cursor]
  | cursor, span :: rest => between text cursor span.start :: gaps text span.stop rest

attribute [local grind =] gaps

/-- What the spans cover. -/
def covered (text : List α) (spans : List Span) : List (List α) := spans.map fun span => between text span.start span.stop

/-- Pieces in order, with a filler after each but the last. -/
def weave : List (List α) → List (List α) → List α
  | piece :: pieces, filler :: fillers => piece ++ filler ++ weave pieces fillers
  | pieces, _ => pieces.flatten

attribute [local grind =] weave

theorem between_append {text : List α} {cursor start : ℕ} (h : cursor ≤ start) :
    between text cursor start ++ text.drop start = text.drop cursor := by
  have hsplit : (text.take start ++ text.drop start).drop cursor = text.drop cursor := by rw [List.take_append_drop]
  rw [List.drop_append] at hsplit
  rw [between, ← hsplit]
  by_cases hlength : start ≤ text.length
  · have hzero : cursor - (text.take start).length = 0 := by
      rw [List.length_take]
      omega
    rw [hzero, List.drop_zero]
  · rw [List.drop_eq_nil_of_le (by omega : text.length ≤ start), List.drop_nil]

theorem weave_covered {text : List α} {cursor : ℕ} {spans : List Span} (h : Apart text.length cursor spans) :
    weave (gaps text cursor spans) (covered text spans) = text.drop cursor := by
  induction spans generalizing cursor with
  | nil => simp [gaps, covered, weave]
  | cons span rest ih =>
    obtain ⟨hcursor, hspan, -, hrest⟩ := h
    have hrec := ih hrest
    rw [gaps, covered, List.map_cons, weave, ← covered, hrec, List.append_assoc, between_append (Nat.le_of_lt hspan),
      between_append hcursor]

end Spans

/-! ## Frames -/

section Frames
variable {α : Type}

/-- Every frame ends in the mark. -/
def framed (mark : α) (frames : List (List α)) : List α := frames.flatMap fun frame => frame ++ [mark]

theorem splitOn_framed [DecidableEq α] {mark : α} {frames : List (List α)} (h : ∀ frame ∈ frames, mark ∉ frame) :
    (framed mark frames).splitOn mark = frames ++ [[]] := by
  induction frames with
  | nil => exact List.splitOn_nil mark
  | cons frame frames ih =>
    have hrec := ih fun f hf => h f (List.mem_cons_of_mem frame hf)
    rw [framed, List.flatMap_cons, ← framed, List.append_assoc, List.singleton_append,
      List.splitOn_append_cons_self_of_not_mem (h frame List.mem_cons_self), hrec, List.cons_append]

end Frames

/-! ## The longest prefix that fits -/

section Prefixes
variable {α : Type} (size : α → ℕ) (budget : ℕ)

def totalSize (items : List α) : ℕ := (items.map size).sum

/-- How many items fit one after the other, up to the first that does not. -/
def fitting : ℕ → List α → ℕ
  | _, [] => 0
  | used, item :: rest => if used + size item ≤ budget then fitting (used + size item) rest + 1 else 0

attribute [local grind =] fitting

variable {size budget} {used : ℕ} {items : List α}

theorem fitting_le_length : fitting size budget used items ≤ items.length := by
  induction items generalizing used with
  | nil => exact Nat.le_refl 0
  | cons item rest ih =>
    rw [fitting]
    split_ifs
    · exact Nat.succ_le_succ ih
    · exact Nat.zero_le _

theorem lt_fitting_iff {i : ℕ} : i < fitting size budget used items ↔
    i < items.length ∧ used + totalSize size (items.take (i + 1)) ≤ budget := by
  induction items generalizing used i with
  | nil => simp [fitting]
  | cons item rest ih =>
    have hsize : ∀ k, totalSize size ((item :: rest).take (k + 1)) = size item + totalSize size (rest.take k) := by
      intro k
      rw [List.take_succ_cons, totalSize, List.map_cons, List.sum_cons, ← totalSize]
    rw [fitting, hsize, List.length_cons]
    cases i with
    | zero =>
      have hnil : totalSize size (rest.take 0) = 0 := rfl
      split_ifs with hfits <;> simp only [hnil] <;> omega
    | succ i =>
      split_ifs with hfits
      · rw [Nat.add_lt_add_iff_right, ih, Nat.add_lt_add_iff_right, Nat.add_assoc]
      · refine iff_of_false (Nat.not_lt_zero _) fun h => ?_
        omega

theorem totalSize_take_fitting (h : used ≤ budget) :
    used + totalSize size (items.take (fitting size budget used items)) ≤ budget := by
  cases hk : fitting size budget used items with
  | zero => exact h
  | succ k => exact (lt_fitting_iff.1 (by rw [hk]; exact Nat.lt_succ_self k)).2

theorem le_fitting {j : ℕ} (hj : j ≤ items.length) (h : used + totalSize size (items.take j) ≤ budget) :
    j ≤ fitting size budget used items := by
  cases j with
  | zero => exact Nat.zero_le _
  | succ j => exact lt_fitting_iff.2 ⟨hj, h⟩

end Prefixes
end OcorRuntime
