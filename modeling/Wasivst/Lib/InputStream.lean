import Mathlib.Data.List.Basic

/-!
# Input streams that fail

A read that reaches the end of the content stores what there is and fails, and a stream that has
failed neither moves nor stores anything. What was in the destination before shows where nothing
was stored.
-/

set_option autoImplicit false

structure InputStream (α : Type) where
  content : List α
  position : Nat
  failed : Bool

namespace InputStream
variable {α : Type}

def ofContent (content : List α) : InputStream α := ⟨content, 0, false⟩

/-- A position behind the end is not a failure. -/
def seek (s : InputStream α) (position : Nat) : InputStream α :=
  if s.failed then s else { s with position }

/-- `old` with `xs` over its beginning. -/
def stored (old xs : List α) : List α := xs ++ old.drop xs.length

/-- The stream behind the read, and what is then in a destination that held `old`. -/
def read (s : InputStream α) (old : List α) : InputStream α × List α :=
  if s.failed then (s, old)
  else
    let xs := (s.content.drop s.position).take old.length
    ({ s with position := s.position + xs.length, failed := decide (xs.length < old.length) },
      stored old xs)

theorem stored_nil (old : List α) : stored old [] = old := rfl

theorem stored_full {old xs : List α} (h : xs.length = old.length) : stored old xs = xs := by
  rw [stored, h, List.drop_length, List.append_nil]

theorem prefix_stored (old xs : List α) : xs <+: stored old xs := List.prefix_append _ _

/-- A destination that held something longer is left holding it. -/
theorem stored_of_prefix {old xs : List α} (h : xs <+: old) : stored old xs = old :=
  List.prefix_iff_eq_append.mp h

theorem seek_of_failed {s : InputStream α} (h : s.failed = true) (position : Nat) :
    s.seek position = s := if_pos h

theorem read_of_failed {s : InputStream α} (h : s.failed = true) (old : List α) :
    s.read old = (s, old) := if_pos h

theorem read_of_le {content old : List α} {position : Nat}
    (h : position + old.length ≤ content.length) :
    read ⟨content, position, false⟩ old =
      (⟨content, position + old.length, false⟩, (content.drop position).take old.length) := by
  have hlength : ((content.drop position).take old.length).length = old.length := by
    rw [List.length_take, List.length_drop]
    omega
  simp [read, hlength, stored_full hlength]

/-- Two reads in a row store the two parts of one longer read, or what there is of them. -/
theorem read_read (content : List α) (position : Nat) (a b : List α) :
    let first := read ⟨content, position, false⟩ a
    let parts := (content.drop position).take (a.length + b.length)
    first.2 = stored a (parts.take a.length) ∧
      (read first.1 b).2 = stored b (parts.drop a.length) := by
  intro first parts
  have hparts : parts.take a.length = (content.drop position).take a.length := by
    rw [List.take_take, Nat.min_eq_left (Nat.le_add_right _ _)]
  refine ⟨by rw [hparts]; rfl, ?_⟩
  by_cases hshort : ((content.drop position).take a.length).length < a.length
  · have hnil : parts.drop a.length = [] := by
      apply List.drop_eq_nil_of_le
      rw [List.length_take] at hshort ⊢
      omega
    have hfailed : first.1.failed = true := decide_eq_true hshort
    rw [hnil, stored_nil, read, if_pos hfailed]
  · have hok : ¬ first.1.failed = true := Bool.eq_false_iff.mp (decide_eq_false hshort)
    have hlength : ((content.drop position).take a.length).length = a.length := by
      rw [List.length_take] at hshort ⊢
      omega
    have hposition : first.1.position = position + a.length := congrArg (position + ·) hlength
    have hrest : parts.drop a.length = (content.drop (position + a.length)).take b.length := by
      rw [List.drop_take, List.drop_drop, Nat.add_sub_cancel_left]
    rw [read, if_neg hok, hrest, hposition]
    rfl

end InputStream
