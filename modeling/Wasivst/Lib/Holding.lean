import Mathlib.Logic.Function.Basic

/-!
# Things that move between holders

Each holder has at most one thing, and may give it to another, whose own thing is then lost. What
is held, and by whom, after each such step.
-/

set_option autoImplicit false

namespace Holding
variable {ι κ : Type} [DecidableEq ι]

theorem update_eq_some {f : ι → Option κ} {i m : ι} {x : Option κ} {k : κ} :
    Function.update f i x m = some k ↔ m = i ∧ x = some k ∨ m ≠ i ∧ f m = some k := by
  by_cases hmi : m = i
  · rw [hmi, Function.update_self]
    simp
  · rw [Function.update_of_ne hmi]
    simp [hmi]

def Held (has : ι → Option κ) (k : κ) : Prop := ∃ i, has i = some k

/-- No thing has two holders. -/
def Exclusive (has : ι → Option κ) : Prop := ∀ ⦃i j k⦄, has i = some k → has j = some k → i = j

/-- `i` takes what `j` has. -/
def move (has : ι → Option κ) (i j : ι) : ι → Option κ :=
  Function.update (Function.update has j none) i (has j)

variable {has : ι → Option κ} {i j : ι} {k k' : κ}

@[simp] theorem move_self : move has i j i = has j := Function.update_self _ _ _

theorem move_source (h : i ≠ j) : move has i j j = none := by
  rw [move, Function.update_of_ne h.symm, Function.update_self]

theorem move_of_ne {m : ι} (hi : m ≠ i) (hj : m ≠ j) : move has i j m = has m := by
  rw [move, Function.update_of_ne hi, Function.update_of_ne hj]

omit [DecidableEq ι] in
theorem Exclusive.empty : Exclusive fun _ : ι => (none : Option κ) := fun _ _ _ h _ => by cases h

/-! ## Taking up a new thing -/

theorem held_put (hi : has i = none) :
    Held (Function.update has i (some k)) k' ↔ Held has k' ∨ k' = k := by
  constructor
  · intro h
    rcases h with ⟨m, hm⟩
    by_cases hmi : m = i
    · rw [hmi, Function.update_self] at hm
      exact Or.inr (Option.some.inj hm).symm
    · rw [Function.update_of_ne hmi] at hm
      exact Or.inl ⟨m, hm⟩
  · intro h
    rcases h with ⟨m, hm⟩ | heq
    · have hmi : m ≠ i := by
        intro hmi
        rw [hmi, hi] at hm
        cases hm
      exact ⟨m, by rw [Function.update_of_ne hmi]; exact hm⟩
    · exact ⟨i, by rw [Function.update_self, heq]⟩

theorem Exclusive.put (h : Exclusive has) (hk : ¬ Held has k) :
    Exclusive (Function.update has i (some k)) := by
  intro m n k' hm hn
  rw [Function.update_apply] at hm hn
  split at hm
  · split at hn
    · rename_i hmi hni
      rw [hmi, hni]
    · rw [← Option.some.inj hm] at hn
      exact absurd ⟨n, hn⟩ hk
  · split at hn
    · rw [← Option.some.inj hn] at hm
      exact absurd ⟨m, hm⟩ hk
    · exact h hm hn

/-! ## Dropping a thing -/

theorem held_drop (h : Exclusive has) :
    Held (Function.update has i none) k ↔ Held has k ∧ has i ≠ some k := by
  constructor
  · intro hheld
    rcases hheld with ⟨m, hm⟩
    by_cases hmi : m = i
    · rw [hmi, Function.update_self] at hm
      cases hm
    · rw [Function.update_of_ne hmi] at hm
      exact ⟨⟨m, hm⟩, fun hi => hmi (h hm hi)⟩
  · intro hheld
    rcases hheld with ⟨⟨m, hm⟩, hi⟩
    have hmi : m ≠ i := by
      intro hmi
      exact hi (hmi ▸ hm)
    exact ⟨m, by rw [Function.update_of_ne hmi]; exact hm⟩

theorem Exclusive.drop (h : Exclusive has) : Exclusive (Function.update has i none) := by
  intro m n k hm hn
  rw [Function.update_apply] at hm hn
  split at hm
  · cases hm
  · split at hn
    · cases hn
    · exact h hm hn

/-! ## Moving a thing -/

theorem held_move (h : Exclusive has) :
    Held (move has i j) k ↔ Held has k ∧ (has i = some k → i = j) := by
  constructor
  · intro hheld
    rcases hheld with ⟨m, hm⟩
    by_cases hmi : m = i
    · rw [hmi, move_self] at hm
      exact ⟨⟨j, hm⟩, fun hi => h hi hm⟩
    · by_cases hmj : m = j
      · rw [hmj, move_source (fun hij => hmi (hmj.trans hij.symm))] at hm
        cases hm
      · rw [move_of_ne hmi hmj] at hm
        exact ⟨⟨m, hm⟩, fun hi => absurd (h hm hi) hmi⟩
  · intro hheld
    rcases hheld with ⟨⟨m, hm⟩, hi⟩
    by_cases hmj : m = j
    · exact ⟨i, by rw [move_self, ← hmj]; exact hm⟩
    · have hmi : m ≠ i := by
        intro hmi
        exact hmj (hmi.trans (hi (hmi ▸ hm)))
      exact ⟨m, by rw [move_of_ne hmi hmj]; exact hm⟩

theorem Exclusive.move (h : Exclusive has) : Exclusive (move has i j) := by
  have hsource : ∀ {m k}, Holding.move has i j m = some k → has (if m = i then j else m) = some k ∧
      (m = i ∨ m ≠ j) := by
    intro m k hm
    by_cases hmi : m = i
    · rw [hmi, move_self] at hm
      rw [if_pos hmi]
      exact ⟨hm, Or.inl hmi⟩
    · by_cases hmj : m = j
      · rw [hmj, move_source (fun hij => hmi (hmj.trans hij.symm))] at hm
        cases hm
      · rw [move_of_ne hmi hmj] at hm
        rw [if_neg hmi]
        exact ⟨hm, Or.inr hmj⟩
  intro m n k hm hn
  obtain ⟨hm, hmj⟩ := hsource hm
  obtain ⟨hn, hnj⟩ := hsource hn
  have heq := h hm hn
  by_cases hmi : m = i
  · by_cases hni : n = i
    · rw [hmi, hni]
    · rw [if_pos hmi, if_neg hni] at heq
      exact absurd heq.symm (hnj.resolve_left hni)
  · by_cases hni : n = i
    · rw [if_neg hmi, if_pos hni] at heq
      exact absurd heq (hmj.resolve_left hmi)
    · rwa [if_neg hmi, if_neg hni] at heq

end Holding
