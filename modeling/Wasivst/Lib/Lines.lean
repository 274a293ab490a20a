import Mathlib.Data.List.Infix

/-!
# Lines

A text that grows at its end is cut into lines. What has become a line stays one, however the rest
arrives.
-/

set_option autoImplicit false

namespace Lines
variable {α : Type} [DecidableEq α] {sep : α}

/-- The lines that have come to their end. -/
def ended (sep : α) (s : List α) : List (List α) := (s.splitOn sep).dropLast

theorem ended_of_notMem {s : List α} (h : sep ∉ s) : ended sep s = [] := by
  rw [ended, List.splitOn_eq_singleton h]
  rfl

theorem ended_line {l : List α} (h : sep ∉ l) (s : List α) :
    ended sep (l ++ sep :: s) = l :: ended sep s := by
  rw [ended, List.splitOn_append_cons_self_of_not_mem h,
    List.dropLast_cons_of_ne_nil (List.splitOn_ne_nil sep s)]
  rfl

theorem ended_lines {ls : List (List α)} (h : ∀ l ∈ ls, sep ∉ l) (s : List α) :
    ended sep (ls.flatMap (fun l => l ++ [sep]) ++ s) = ls ++ ended sep s := by
  induction ls with
  | nil => rfl
  | cons l ls ih =>
    have hrest := ih fun x hx => h x (List.mem_cons_of_mem l hx)
    rw [List.flatMap_cons, List.append_assoc, List.append_assoc, List.singleton_append,
      ended_line (h l List.mem_cons_self), hrest]
    rfl

/-- A text that was put together from whole rows. -/
theorem splitOn_rows (rows : List (List α)) :
    (rows.flatMap fun row => row ++ [sep]).splitOn sep =
      rows.flatMap (fun row => row.splitOn sep) ++ [[]] := by
  induction rows with
  | nil => exact List.splitOn_nil sep
  | cons row rows ih =>
    rw [List.flatMap_cons, List.append_assoc, List.singleton_append,
      List.splitOn_append_cons_self, ih, List.flatMap_cons, List.append_assoc]

end Lines
