import Mathlib.Data.List.Infix

/-! Trailing-wildcard patterns over an alphabet with a star and a separator: a
pattern is the star alone, a literal, or a prefix that ends in the separator
followed by the star. A pattern may also be matched against a pattern; both ways
of doing that compose with matching a literal. -/
namespace OcorRuntime.Wildcard
set_option autoImplicit false
set_option maxHeartbeats 250000

variable {α : Type} (star sep : α)

def Matches (pattern requested : List α) : Prop :=
  pattern = [star] ∨ pattern = requested ∨ ([sep, star] <:+ pattern ∧ pattern.dropLast <+: requested)

instance [DecidableEq α] (pattern requested : List α) : Decidable (Matches star sep pattern requested) :=
  inferInstanceAs (Decidable (_ ∨ _ ∨ _ ∧ _))

/-- Containment of patterns: a pattern that ends in the wildcard is compared by its prefix. -/
def Contains [DecidableEq α] (outer inner : List α) : Prop :=
  outer = [star] ∨ outer = inner ∨
    ([sep, star] <:+ outer ∧ outer.dropLast <+: if [sep, star] <:+ inner then inner.dropLast else inner)

instance [DecidableEq α] (outer inner : List α) : Decidable (Contains star sep outer inner) :=
  inferInstanceAs (Decidable (_ ∨ _ ∨ _ ∧ _))

variable {star sep}

theorem dropLast_of_suffix {pattern : List α} (h : [sep, star] <:+ pattern) :
    ∃ init, pattern = init ++ [sep, star] ∧ pattern.dropLast = init ++ [sep] := by
  obtain ⟨init, rfl⟩ := h
  refine ⟨init, rfl, ?_⟩
  rw [show init ++ [sep, star] = (init ++ [sep]) ++ [star] by simp, List.dropLast_concat]

theorem not_dropLast_isPrefix_star (hne : sep ≠ star) {pattern : List α} (h : [sep, star] <:+ pattern) :
    ¬ pattern.dropLast <+: [star] := by
  obtain ⟨init, -, hd⟩ := dropLast_of_suffix h
  rw [hd]
  intro hp
  cases init with
  | nil => exact hne (List.cons_prefix_cons.mp hp).1
  | cons a init =>
    have := hp.length_le
    simp at this

theorem dropLast_isPrefix_dropLast (hne : sep ≠ star) {outer inner : List α} (ho : [sep, star] <:+ outer)
    (hi : [sep, star] <:+ inner) (h : outer.dropLast <+: inner) : outer.dropLast <+: inner.dropLast := by
  obtain ⟨o, -, hod⟩ := dropLast_of_suffix ho
  obtain ⟨i, hi, hid⟩ := dropLast_of_suffix hi
  rw [hod, hi] at h
  rw [hod, hid]
  have h' : o ++ [sep] <+: (i ++ [sep]) ++ [star] := by simpa using h
  rcases List.prefix_concat_iff.mp h' with heq | hp
  · have := congrArg List.getLast? heq
    simp only [List.getLast?_concat, Option.some.injEq] at this
    exact absurd this hne
  · exact hp

theorem Matches.prefix_of_ne_star (hne : sep ≠ star) {pattern inner requested : List α} (hp : [sep, star] <:+ pattern)
    (hpi : pattern.dropLast <+: inner) (h : Matches star sep inner requested) : pattern.dropLast <+: requested := by
  rcases h with rfl | rfl | ⟨hi, hr⟩
  · exact absurd hpi (not_dropLast_isPrefix_star hne hp)
  · exact hpi
  · exact (dropLast_isPrefix_dropLast hne hp hi hpi).trans hr

theorem Matches.trans (hne : sep ≠ star) {outer inner requested : List α} (ho : Matches star sep outer inner)
    (hi : Matches star sep inner requested) : Matches star sep outer requested := by
  rcases ho with h | rfl | ⟨hs, hp⟩
  · exact Or.inl h
  · exact hi
  · exact Or.inr (Or.inr ⟨hs, hi.prefix_of_ne_star hne hs hp⟩)

theorem Contains.matches [DecidableEq α] (hne : sep ≠ star) {outer inner requested : List α} (ho : Contains star sep outer inner)
    (hi : Matches star sep inner requested) : Matches star sep outer requested := by
  rcases ho with h | rfl | ⟨hs, hp⟩
  · exact Or.inl h
  · exact hi
  · refine Or.inr (Or.inr ⟨hs, hi.prefix_of_ne_star hne hs ?_⟩)
    split_ifs at hp with hw
    · exact hp.trans (List.dropLast_prefix inner)
    · exact hp

end OcorRuntime.Wildcard
