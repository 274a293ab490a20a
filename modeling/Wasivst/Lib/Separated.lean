import Mathlib.Data.List.Basic

/-!
# Texts with separators

What stands in front of the first separator of a text and what stands behind it, and joining.
-/

set_option autoImplicit false

namespace Separated
variable {α : Type} [DecidableEq α] {sep : α}

theorem idxOf?_eq_some {s : List α} {i : Nat} (h : s.idxOf? sep = some i) :
    i < s.length ∧ sep ∉ s.take i ∧ s = s.take i ++ sep :: s.drop (i + 1) := by
  obtain ⟨hlt, hat, hbefore⟩ := List.idxOf?_eq_some_iff.mp h
  refine ⟨hlt, ?_, ?_⟩
  · intro hmem
    obtain ⟨j, hj, hget⟩ := List.mem_take_iff_getElem.mp hmem
    exact hbefore j (by omega) hget
  · have hcons := List.drop_eq_getElem_cons hlt
    rw [hat] at hcons
    rw [← hcons]
    exact (List.take_append_drop i s).symm

omit [DecidableEq α] in
theorem append_cons_inj {k k' v v' : List α} (h : sep ∉ k) (h' : sep ∉ k') :
    k ++ sep :: v = k' ++ sep :: v' ↔ k = k' ∧ v = v' := by
  constructor
  · intro heq
    induction k generalizing k' with
    | nil =>
      cases k' with
      | nil => exact ⟨rfl, (List.cons.inj heq).2⟩
      | cons c k' => exact absurd ((List.cons.inj heq).1 ▸ List.mem_cons_self) h'
    | cons c k ih =>
      cases k' with
      | nil => exact absurd ((List.cons.inj heq).1 ▸ List.mem_cons_self) h
      | cons c' k' =>
        obtain ⟨hc, hrest⟩ := List.cons.inj heq
        obtain ⟨hk, hv⟩ := ih (fun hmem => h (List.mem_cons_of_mem c hmem))
          (fun hmem => h' (List.mem_cons_of_mem c' hmem)) hrest
        exact ⟨by rw [hc, hk], hv⟩
  · intro heq
    rw [heq.1, heq.2]

/-- The parts in front of the first separator and behind it. -/
def cut (sep : α) (s : List α) : Option (List α × List α) :=
  (s.idxOf? sep).map fun i => (s.take i, s.drop (i + 1))

theorem cut_eq_some_iff {s k v : List α} :
    cut sep s = some (k, v) ↔ s = k ++ sep :: v ∧ sep ∉ k := by
  constructor
  · intro h
    obtain ⟨i, hi, hparts⟩ := Option.map_eq_some_iff.mp h
    obtain ⟨rfl, rfl⟩ := Prod.mk.inj hparts
    obtain ⟨-, hnot, hsplit⟩ := idxOf?_eq_some hi
    exact ⟨hsplit, hnot⟩
  · intro h
    rcases h with ⟨rfl, hnot⟩
    cases hi : (k ++ sep :: v).idxOf? sep with
    | none =>
      exact absurd (List.mem_append_right k List.mem_cons_self) (List.idxOf?_eq_none_iff.mp hi)
    | some i =>
      obtain ⟨-, hfirst, hsplit⟩ := idxOf?_eq_some hi
      obtain ⟨hk, hv⟩ := (append_cons_inj hnot hfirst).mp hsplit
      rw [cut, hi, Option.map_some, ← hk, ← hv]

omit [DecidableEq α] in
theorem intercalate_append_singleton (xss : List (List α)) (xs : List α) :
    [sep].intercalate (xss ++ [xs]) = xss.flatMap (fun x => x ++ [sep]) ++ xs := by
  induction xss with
  | nil => simp
  | cons x xss ih =>
    rw [List.cons_append, List.intercalate_cons_of_ne_nil (by simp), ih]
    simp

end Separated
