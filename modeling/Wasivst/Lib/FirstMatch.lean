import Mathlib.Data.List.Nodup
import Mathlib.Order.Lattice

/-!
# The first match in the order of a key

The elements of a list are sorted by a key and searched from the front. What is found has the
smallest key of all that match, and when no key occurs twice nothing else is found.
-/

set_option autoImplicit false

namespace FirstMatch
variable {α κ : Type} [LinearOrder κ]

def sortedBy (key : α → κ) (xs : List α) : List α :=
  xs.mergeSort fun a b => decide (key a ≤ key b)

variable {key : α → κ} {p : α → Bool} {xs : List α} {a : α}

theorem mem_sortedBy : a ∈ sortedBy key xs ↔ a ∈ xs := List.mem_mergeSort

theorem sortedBy_pairwise (key : α → κ) (xs : List α) :
    (sortedBy key xs).Pairwise fun a b => key a ≤ key b := by
  have hsorted := @List.pairwise_mergeSort _ (fun a b => decide (key a ≤ key b)) ?_ ?_ xs
  · exact hsorted.imp fun h => of_decide_eq_true h
  · intro a b c hab hbc
    exact decide_eq_true (le_trans (of_decide_eq_true hab) (of_decide_eq_true hbc))
  · intro a b
    rcases le_total (key a) (key b) with h | h
    · simp [h]
    · simp [h]

/-- An element that matches, and no other that does has a smaller key. -/
structure IsFirst (key : α → κ) (p : α → Bool) (xs : List α) (a : α) : Prop where
  mem : a ∈ xs
  matched : p a = true
  least : ∀ b ∈ xs, p b = true → key a ≤ key b

theorem isFirst_of_find (h : (sortedBy key xs).find? p = some a) : IsFirst key p xs a := by
  have hsorted := sortedBy_pairwise key xs
  obtain ⟨hp, before, after, hsplit, hbefore⟩ := List.find?_eq_some_iff_append.mp h
  rw [hsplit] at hsorted
  obtain ⟨-, hafter, -⟩ := List.pairwise_append.mp hsorted
  constructor
  · exact mem_sortedBy.mp (List.mem_of_find?_eq_some h)
  · exact hp
  · intro b hb hpb
    rw [← @mem_sortedBy α κ _ key, hsplit] at hb
    rcases List.mem_append.mp hb with hb | hb
    · have hnot := hbefore b hb
      rw [hpb] at hnot
      cases hnot
    · rcases List.mem_cons.mp hb with rfl | hb
      · exact le_refl _
      · exact (List.pairwise_cons.mp hafter).1 b hb

theorem find_eq_some_iff (hdistinct : (xs.map key).Nodup) :
    (sortedBy key xs).find? p = some a ↔ IsFirst key p xs a := by
  constructor
  · exact isFirst_of_find
  · intro h
    cases hfind : (sortedBy key xs).find? p with
    | none =>
      exact absurd h.matched (List.find?_eq_none.mp hfind a (mem_sortedBy.mpr h.mem))
    | some b =>
      have hb := isFirst_of_find hfind
      have hkey : key b = key a := le_antisymm (hb.least a h.mem h.matched)
        (h.least b hb.mem hb.matched)
      rw [List.inj_on_of_nodup_map hdistinct hb.mem h.mem hkey]

theorem find_eq_none_iff : (sortedBy key xs).find? p = none ↔ ∀ b ∈ xs, ¬ p b = true := by
  rw [List.find?_eq_none]
  constructor
  · intro h b hb
    exact h b (mem_sortedBy.mpr hb)
  · intro h b hb
    exact h b (mem_sortedBy.mp hb)

end FirstMatch
