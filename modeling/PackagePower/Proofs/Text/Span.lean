import Mathlib.Data.List.TakeDrop

/-!
# Splitting at the first character that is different

A row of characters of one kind is split off where it ends. Split at a mark, a text falls into
what stands in front of the first mark and the rest.
-/

namespace PackagePower.Text

theorem span_append {α : Type} {p : α → Bool} {front rest : List α} (all : ∀ a ∈ front, p a = true)
    (stop : ∀ a ∈ rest.head?, p a = false) : (front ++ rest).span p = (front, rest) := by
  rw [List.span_eq_takeWhile_dropWhile, List.takeWhile_append_of_pos all,
    List.dropWhile_append_of_pos all]
  cases rest with
  | nil => rw [List.takeWhile_nil, List.append_nil, List.dropWhile_nil]
  | cons a rest =>
    have other : ¬ p a = true := by rw [stop a rfl]; exact Bool.false_ne_true
    rw [List.takeWhile_cons_of_neg other, List.append_nil, List.dropWhile_cons_of_neg other]

theorem span_all {α : Type} {p : α → Bool} {chars : List α} (all : ∀ a ∈ chars, p a = true) :
    chars.span p = (chars, []) := by
  have ended := span_append all (show ∀ a ∈ ([] : List α).head?, p a = false from nofun)
  rwa [List.append_nil] at ended

section
variable {mark : Char} {front : List Char}

theorem unmarked_chars (unmarked : mark ∉ front) : ∀ c ∈ front, decide (c ≠ mark) = true := by
  intro c member
  rw [decide_eq_true_iff]
  rintro rfl
  exact unmarked member

theorem span_marked (unmarked : mark ∉ front) (behind : List Char) :
    (front ++ mark :: behind).span (fun c => decide (c ≠ mark)) = (front, mark :: behind) := by
  apply span_append (unmarked_chars unmarked)
  rintro _ ⟨⟩
  simp

theorem span_unmarked (unmarked : mark ∉ front) :
    front.span (fun c => decide (c ≠ mark)) = (front, []) :=
  span_all (unmarked_chars unmarked)

end

end PackagePower.Text
