import Mathlib.Data.List.Basic

/-!
# Files with a position

A file is its content and a position inside it. Reading and writing start at the position and move
it, a new size cuts the content or fills it up.
-/

set_option autoImplicit false

structure SeekableFile (α : Type) where
  content : List α
  position : Nat
  inside : position ≤ content.length

namespace SeekableFile
variable {α : Type}

/-- The content with `xs` over what it held from a position on. -/
def overwritten (content : List α) (position : Nat) (xs : List α) : List α :=
  content.take position ++ xs ++ content.drop (position + xs.length)

/-- The content cut to a size or filled up to it. -/
def resized (fill : α) (content : List α) (size : Nat) : List α :=
  content.take size ++ List.replicate (size - content.length) fill

theorem overwritten_length {content : List α} {position : Nat} (h : position ≤ content.length)
    (xs : List α) :
    (overwritten content position xs).length = max content.length (position + xs.length) := by
  simp only [overwritten, List.length_append, List.length_take, List.length_drop]
  omega

@[simp] theorem resized_length (fill : α) (content : List α) (size : Nat) :
    (resized fill content size).length = size := by
  simp only [resized, List.length_append, List.length_take, List.length_replicate]
  omega

/-- Growing first does not change what is overwritten to the end. -/
theorem overwritten_resized (fill : α) {content : List α} {position : Nat}
    (h : position ≤ content.length) (xs : List α) :
    overwritten (resized fill content (max content.length (position + xs.length))) position xs =
      overwritten content position xs := by
  unfold overwritten resized
  have hkeep : content.take (max content.length (position + xs.length)) = content :=
    List.take_of_length_le (Nat.le_max_left _ _)
  rw [hkeep, List.take_append_of_le_length h, List.drop_append]
  have hfill : (List.replicate (max content.length (position + xs.length) - content.length)
      fill).drop (position + xs.length - content.length) = [] := by
    apply List.drop_eq_nil_of_le
    rw [List.length_replicate]
    omega
  rw [hfill, List.append_nil]

theorem resized_of_le (fill : α) {content : List α} {size : Nat} (h : size ≤ content.length) :
    resized fill content size = content.take size := by
  unfold resized
  rw [Nat.sub_eq_zero_of_le h, List.replicate_zero, List.append_nil]

/-- What stands before a size is kept. -/
theorem take_resized (fill : α) {content : List α} {n size : Nat} (h : n ≤ content.length)
    (hsize : n ≤ size) : (resized fill content size).take n = content.take n := by
  unfold resized
  rw [List.take_append_of_le_length, List.take_take, Nat.min_eq_left hsize]
  rw [List.length_take]
  omega

theorem take_overwritten {content xs : List α} {position n : Nat} (h : position ≤ content.length)
    (hn : n ≤ xs.length) :
    (overwritten content position xs).take (position + n) = content.take position ++ xs.take n := by
  have hposition : (content.take position).length = position := List.length_take_of_le h
  unfold overwritten
  rw [List.append_assoc, List.take_append, hposition, Nat.add_sub_cancel_left,
    List.take_take, Nat.min_eq_right (Nat.le_add_right _ _), List.take_append_of_le_length hn]

/-- What is written at the end of the content is appended. -/
theorem overwritten_end (content xs : List α) :
    overwritten content content.length xs = content ++ xs := by
  unfold overwritten
  rw [List.take_length, List.drop_eq_nil_of_le (Nat.le_add_right _ _), List.append_nil]

/-! ## The operations -/

def size (f : SeekableFile α) : Nat := f.content.length

/-- Up to `n` elements from the position on. -/
def read (f : SeekableFile α) (n : Nat) : List α × SeekableFile α :=
  let xs := (f.content.drop f.position).take n
  (xs, ⟨f.content, f.position + xs.length, by
    have hlen : xs.length = min n (f.content.length - f.position) := by
      rw [List.length_take, List.length_drop]
    have hin := f.inside
    omega⟩)

def write (f : SeekableFile α) (xs : List α) : SeekableFile α :=
  ⟨overwritten f.content f.position xs, f.position + xs.length, by
    rw [overwritten_length f.inside]
    exact Nat.le_max_right _ _⟩

/-- The place in the file that is nearest to a target. -/
def clamp (f : SeekableFile α) (target : Int) : Nat := min target.toNat f.size

def seek (f : SeekableFile α) (target : Int) : SeekableFile α :=
  ⟨f.content, f.clamp target, Nat.min_le_right _ _⟩

def resize (f : SeekableFile α) (fill : α) (n : Nat) : SeekableFile α :=
  ⟨resized fill f.content n, min f.position n, by
    rw [resized_length]
    exact Nat.min_le_right _ _⟩

/-- A file is back where another one with its content is. -/
theorem seek_back {f g : SeekableFile α} (h : g.content = f.content) : g.seek f.position = f := by
  obtain ⟨content, position, inside⟩ := f
  obtain ⟨content', position', inside'⟩ := g
  obtain rfl : content' = content := h
  have hclamp : min position content'.length = position := Nat.min_eq_left inside
  simp [seek, clamp, size, hclamp]

theorem overwritten_whole {content xs : List α} (h : xs.length = content.length) :
    overwritten content 0 xs = xs := by
  simp [overwritten, h]

theorem overwritten_nil (content : List α) (position : Nat) :
    overwritten content position [] = content := by
  simp [overwritten]

end SeekableFile
