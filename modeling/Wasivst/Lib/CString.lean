import Mathlib.Algebra.Notation.Defs
import Mathlib.Data.List.TakeWhile

/-!
# Strings that end at a zero

A string behind a pointer is the elements before its terminator. In a buffer of `n` elements it
leaves the rest undetermined, and a copy into such a buffer is cut so that the terminator fits.
-/

set_option autoImplicit false

namespace CString

variable {α : Type} [Zero α] {n : Nat}

/-- The length of what is copied. -/
def copyLength (n : Nat) (s : List α) : Nat := min (n - 1) s.length

/-- What does not fit is cut, and what is behind the terminator is left as it was. -/
def copy (b : Vector α n) (s : List α) : Vector α n :=
  if h : 0 < n then
    ⟨(s.take (n - 1) ++ 0 :: b.toList.drop (copyLength n s + 1)).toArray, by
      simp only [List.size_toArray, List.length_append, List.length_take, List.length_cons,
        List.length_drop, Vector.length_toList, copyLength]
      omega⟩
  else b

theorem copy_toList (hn : 0 < n) (b : Vector α n) (s : List α) :
    (copy b s).toList = s.take (n - 1) ++ 0 :: b.toList.drop (copyLength n s + 1) := by
  rw [copy, dif_pos hn]
  rfl

theorem zero_mem_copy (hn : 0 < n) (b : Vector α n) (s : List α) : 0 ∈ (copy b s).toList := by
  rw [copy_toList hn]
  exact List.mem_append_right _ List.mem_cons_self

variable [DecidableEq α]

abbrev Chars (α : Type) [Zero α] := { s : List α // 0 ∉ s }

theorem takeWhile_append_zero {s : List α} (h : 0 ∉ s) (rest : List α) :
    (s ++ 0 :: rest).takeWhile (· ≠ 0) = s := by
  have hall : ∀ a ∈ s, decide (a ≠ 0) = true := by
    intro a ha
    rw [decide_eq_true_eq]
    intro hzero
    exact h (hzero ▸ ha)
  rw [List.takeWhile_append_of_pos hall]
  simp

theorem notMem_takeWhile (s : List α) : 0 ∉ s.takeWhile (· ≠ 0) := by
  intro h
  have hne := List.mem_takeWhile_imp h
  simp at hne

/-- A string that may hold zeros, read through a pointer to its first element. -/
def c_str (s : List α) : Chars α := ⟨(s ++ [0]).takeWhile (· ≠ 0), notMem_takeWhile _⟩

@[simp] theorem c_str_val (s : Chars α) : c_str s.1 = s :=
  Subtype.ext (takeWhile_append_zero s.2 [])

/-! ## Buffers -/

/-- A reader of a buffer without a terminator would leave it. -/
def text (b : Vector α n) : Option (List α) :=
  if 0 ∈ b.toList then some (b.toList.takeWhile (· ≠ 0)) else none

/-- Nothing but zeros from the first one on. -/
def cleared (b : Vector α n) : Vector α n :=
  Vector.ofFn fun i => if 0 ∈ b.toList.take i then 0 else b[i]

theorem cleared_getElem (b : Vector α n) {i : Nat} (hi : i < n) :
    (cleared b)[i] = if 0 ∈ b.toList.take i then 0 else b[i] := Vector.getElem_ofFn hi

theorem text_eq_some {b : Vector α n} {s : List α} :
    text b = some s ↔ 0 ∉ s ∧ ∃ rest, b.toList = s ++ 0 :: rest := by
  unfold text
  constructor
  · intro h
    split_ifs at h with hzero
    obtain rfl := Option.some.inj h
    obtain ⟨front, rest, hb, hfront⟩ := List.eq_append_cons_of_mem hzero
    refine ⟨notMem_takeWhile _, rest, ?_⟩
    rw [hb, takeWhile_append_zero hfront]
  · intro h
    obtain ⟨hs, rest, hb⟩ := h
    rw [hb, takeWhile_append_zero hs, if_pos (by simp)]

theorem text_eq_none {b : Vector α n} : text b = none ↔ 0 ∉ b.toList := by
  unfold text
  split <;> simp_all

theorem text_isSome {b : Vector α n} : (text b).isSome ↔ 0 ∈ b.toList := by
  rw [← Option.ne_none_iff_isSome, ne_eq, text_eq_none, not_not]

theorem notMem_of_text {b : Vector α n} {s : List α} (h : text b = some s) : 0 ∉ s :=
  (text_eq_some.mp h).1

theorem length_lt_of_text {b : Vector α n} {s : List α} (h : text b = some s) : s.length < n := by
  obtain ⟨_, rest, hb⟩ := text_eq_some.mp h
  have hlen := congrArg List.length hb
  simp at hlen
  omega

theorem cleared_toList {b : Vector α n} {s : List α} (h : text b = some s) :
    (cleared b).toList = s ++ List.replicate (n - s.length) 0 := by
  have hlt := length_lt_of_text h
  obtain ⟨hs, rest, hb⟩ := text_eq_some.mp h
  apply List.ext_getElem
  · simp only [Vector.length_toList, List.length_append, List.length_replicate]
    omega
  · intro i hi hi'
    rw [Vector.getElem_toList, cleared_getElem, List.getElem_append]
    rw [Vector.length_toList] at hi
    have hget : b[i] = (s ++ 0 :: rest)[i]?.getD 0 := by
      rw [← hb, Vector.getElem?_toList, Vector.getElem?_eq_getElem hi, Option.getD_some]
    rw [hget, hb]
    by_cases hbefore : i < s.length
    · have hnot : 0 ∉ (s ++ 0 :: rest).take i := by
        rw [List.take_append_of_le_length (Nat.le_of_lt hbefore)]
        intro hmem
        exact hs (List.mem_of_mem_take hmem)
      rw [if_neg hnot, dif_pos hbefore, List.getElem?_append_left hbefore,
        List.getElem?_eq_getElem hbefore, Option.getD_some]
    · rw [dif_neg hbefore, List.getElem_replicate]
      by_cases hat : i = s.length
      · subst hat
        simp
      · have hmem : 0 ∈ (s ++ 0 :: rest).take i := by
          obtain ⟨k, rfl⟩ : ∃ k, i = s.length + (k + 1) := ⟨i - s.length - 1, by omega⟩
          rw [List.take_length_add_append]
          simp
        rw [if_pos hmem]

/-- Copied into zeros, the string of a buffer is all that is left of it. -/
theorem copy_text {b : Vector α n} {s : List α} (h : text b = some s) :
    copy (Vector.replicate n 0) s = cleared b := by
  have hlt := length_lt_of_text h
  have hlen : copyLength n s = s.length := Nat.min_eq_right (Nat.le_sub_one_of_lt hlt)
  have hn : 0 < n := Nat.zero_lt_of_lt hlt
  have hrest : n - s.length = n - (s.length + 1) + 1 := by omega
  apply Vector.toList_inj.mp
  rw [copy_toList hn, cleared_toList h, hlen, List.take_of_length_le (Nat.le_sub_one_of_lt hlt),
    Vector.toList_replicate, List.drop_replicate, hrest, List.replicate_succ]

theorem text_copy {s : List α} (hs : 0 ∉ s) (hlt : s.length < n) (b : Vector α n) :
    text (copy b s) = some s := by
  rw [text_eq_some, copy_toList (Nat.zero_lt_of_lt hlt),
    List.take_of_length_le (Nat.le_sub_one_of_lt hlt)]
  exact ⟨hs, _, rfl⟩

/-- What the buffer held before does not matter. -/
theorem cleared_copy {s : List α} (hs : 0 ∉ s) (hlt : s.length < n) (b : Vector α n) :
    cleared (copy b s) = copy (Vector.replicate n 0) s :=
  (copy_text (text_copy hs hlt b)).symm

theorem cleared_of_notMem {b : Vector α n} (h : 0 ∉ b.toList) : cleared b = b := by
  apply Vector.ext
  intro i hi
  have hnot : 0 ∉ b.toList.take i := fun hmem => h (List.mem_of_mem_take hmem)
  rw [cleared_getElem, if_neg hnot]

theorem text_cleared (b : Vector α n) : text (cleared b) = text b := by
  cases h : text b with
  | none =>
    rw [cleared_of_notMem (text_eq_none.mp h), h]
  | some s =>
    have hlt := length_lt_of_text h
    have hrest : n - s.length = n - (s.length + 1) + 1 := by omega
    rw [text_eq_some, cleared_toList h, hrest, List.replicate_succ]
    exact ⟨notMem_of_text h, _, rfl⟩

end CString
