import Wasivst.Lib.Regions
import Mathlib.Logic.Equiv.Basic

/-!
# Who owns what is held

A table says what is held under each key, and every key that is held has one owner. A step of one
owner exchanges the keys that it had for others. The bytes of an address space are such keys.
-/

set_option autoImplicit false

namespace Ownership
variable {ι κ α : Type} {held held' held'' : κ → Option α} {owns : ι → κ → Prop}

structure Divided (held : κ → Option α) (owns : ι → κ → Prop) : Prop where
  held_of_owns : ∀ {i k}, owns i k → (held k).isSome
  owned : ∀ {k}, (held k).isSome → ∃ i, owns i k
  unique : ∀ {i j k}, owns i k → owns j k → i = j

theorem Divided.empty (hno : ∀ i k, ¬ owns i k) :
    Divided (fun _ : κ => (none : Option α)) owns where
  held_of_owns := fun hk => absurd hk (hno _ _)
  owned := fun hk => absurd hk Bool.false_ne_true
  unique := fun hk _ => absurd hk (hno _ _)

theorem Divided.held_iff (h : Divided held owns) (k : κ) : (held k).isSome ↔ ∃ i, owns i k := by
  constructor
  · exact h.owned
  · rintro ⟨i, hi⟩
    exact h.held_of_owns hi

theorem Divided.nothing_held (h : Divided held owns) (hno : ∀ i k, ¬ owns i k) (k : κ) :
    held k = none := by
  by_contra hk
  obtain ⟨i, hi⟩ := h.owned (Option.isSome_iff_ne_none.mpr hk)
  exact hno i k hi

theorem Divided.permute (h : Divided held owns) (σ : ι ≃ ι) : Divided held (owns ∘ σ) where
  held_of_owns := h.held_of_owns
  owned := by
    intro k hk
    obtain ⟨m, hm⟩ := h.owned hk
    refine ⟨σ.symm m, ?_⟩
    rwa [Function.comp_apply, σ.apply_symm_apply]
  unique hm hn := σ.injective (h.unique hm hn)

/-! ## Exchanges -/

/-- The keys of `before` are given up for those of `after`, which nobody else has. -/
structure Exchanged (held held' : κ → Option α) (before after : κ → Prop) : Prop where
  free : ∀ {k}, after k → before k ∨ held k = none
  taken : ∀ {k}, after k → (held' k).isSome
  dropped : ∀ {k}, ¬ after k → before k → held' k = none
  kept : ∀ {k}, ¬ after k → ¬ before k → held' k = held k

theorem Exchanged.refl {keys : κ → Prop} (h : ∀ k, keys k → (held k).isSome) :
    Exchanged held held keys keys where
  free := Or.inl
  taken := h _
  dropped := fun hk hb => absurd hb hk
  kept := fun _ _ => rfl

theorem Exchanged.trans {before after : κ → Prop}
    (h : Exchanged held held' before fun _ => False)
    (h' : Exchanged held' held'' (fun _ => False) after) : Exchanged held held'' before after where
  free := by
    intro k hk
    by_cases hb : before k
    · exact Or.inl hb
    · have hnone := (h'.free hk).resolve_left not_false
      exact Or.inr ((h.kept not_false hb).symm.trans hnone)
  taken := h'.taken
  dropped := by
    intro k hk hb
    rw [h'.kept hk not_false]
    exact h.dropped not_false hb
  kept := by
    intro k hk hb
    rw [h'.kept hk not_false]
    exact h.kept not_false hb

variable {i j : ι} {after : κ → Prop}

/-- An exchange leaves what the others own alone. -/
theorem Divided.other (h : Divided held owns) (e : Exchanged held held' (owns i) after) (hj : j ≠ i)
    {k : κ} (hk : owns j k) : ¬ after k ∧ held' k = held k := by
  have hbefore : ¬ owns i k := fun hi => hj (h.unique hk hi)
  have hafter : ¬ after k := by
    intro ha
    have hnone := (e.free ha).resolve_left hbefore
    have hsome := h.held_of_owns hk
    rw [hnone] at hsome
    contradiction
  exact ⟨hafter, e.kept hafter hbefore⟩

variable [DecidableEq ι]

/-- What there is after an update was there before, or is new. -/
theorem of_update_eq_some {β : Type} (P : ι → β → Prop) {f : ι → Option β} {o : Option β}
    (hold : ∀ j b, j ≠ i → f j = some b → P j b) (hnew : ∀ b, o = some b → P i b) (j : ι) (b : β)
    (hb : Function.update f i o j = some b) : P j b := by
  by_cases hj : j = i
  · subst hj
    rw [Function.update_self] at hb
    exact hnew b hb
  · rw [Function.update_of_ne hj] at hb
    exact hold j b hj hb

theorem Divided.exchange (h : Divided held owns) (e : Exchanged held held' (owns i) after) :
    Divided held' (Function.update owns i after) where
  held_of_owns := by
    intro m k hm
    by_cases hmi : m = i
    · subst hmi
      rw [Function.update_self] at hm
      exact e.taken hm
    · rw [Function.update_of_ne hmi] at hm
      rw [(h.other e hmi hm).2]
      exact h.held_of_owns hm
  owned := by
    intro k hk
    by_cases ha : after k
    · refine ⟨i, ?_⟩
      rwa [Function.update_self]
    · have hbefore : ¬ owns i k := by
        intro hi
        rw [e.dropped ha hi] at hk
        contradiction
      rw [e.kept ha hbefore] at hk
      obtain ⟨m, hm⟩ := h.owned hk
      have hmi : m ≠ i := by
        rintro rfl
        exact hbefore hm
      refine ⟨m, ?_⟩
      rwa [Function.update_of_ne hmi]
  unique := by
    intro m n k hm hn
    by_cases hmi : m = i <;> by_cases hni : n = i
    · exact hmi.trans hni.symm
    · subst hmi
      rw [Function.update_self] at hm
      rw [Function.update_of_ne hni] at hn
      exact absurd hm (h.other e hni hn).1
    · subst hni
      rw [Function.update_self] at hn
      rw [Function.update_of_ne hmi] at hm
      exact absurd hn (h.other e hmi hm).1
    · rw [Function.update_of_ne hmi] at hm
      rw [Function.update_of_ne hni] at hn
      exact h.unique hm hn

/-- One owner hands all it has to another that has nothing. -/
theorem Divided.transfer (h : Divided held owns) (hij : i ≠ j) (hj : ∀ k, ¬ owns j k) :
    Divided held (Function.update (Function.update owns i fun _ => False) j (owns i)) := by
  have hnone : owns j = fun _ => False := by
    funext k
    exact eq_false (hj k)
  have hswap : Function.update (Function.update owns i fun _ => False) j (owns i) =
      owns ∘ Equiv.swap i j := by
    funext m
    by_cases hmj : m = j
    · subst hmj
      simp
    · rw [Function.update_of_ne hmj]
      by_cases hmi : m = i
      · subst hmi
        simp [hnone]
      · rw [Function.update_of_ne hmi, Function.comp_apply, Equiv.swap_apply_of_ne_of_ne hmi hmj]
  rw [hswap]
  exact h.permute _

/-! ## One key -/

section Key
variable [DecidableEq κ] {k : κ}

theorem Exchanged.open_key (hk : held k = none) (a : α) :
    Exchanged held (Function.update held k (some a)) (fun _ => False) (· = k) where
  free := by
    rintro _ rfl
    exact Or.inr hk
  taken := by
    rintro _ rfl
    simp
  dropped := fun _ hb => absurd hb not_false
  kept := fun hne _ => Function.update_of_ne hne _ _

theorem Exchanged.close_key :
    Exchanged held (Function.update held k none) (· = k) fun _ => False where
  free := fun ha => absurd ha not_false
  taken := fun ha => absurd ha not_false
  dropped := by
    rintro _ _ rfl
    exact Function.update_self _ _ _
  kept := fun _ hne => Function.update_of_ne hne _ _

end Key

/-! ## Address spaces -/

section Addresses
open Regions
variable {memory : Nat → Option α}

instance {n offset a : Nat} : Decidable (Inside n offset a) :=
  inferInstanceAs (Decidable (offset ≤ a ∧ a < offset + n))

def fill (memory : Nat → Option α) (address length : Nat) (f : Nat → α) : Nat → Option α :=
  fun x => if Inside length address x then some (f (x - address)) else memory x

def clear (memory : Nat → Option α) (address length : Nat) : Nat → Option α :=
  fun x => if Inside length address x then none else memory x

theorem inside_iff {n a x : Nat} : Inside n a x ↔ ∃ i < n, x = a + i := by
  constructor
  · rintro ⟨hle, hlt⟩
    exact ⟨x - a, by omega, by omega⟩
  · rintro ⟨i, hi, rfl⟩
    exact ⟨by omega, by omega⟩

theorem fill_add {address length i : Nat} (f : Nat → α) (hi : i < length) :
    fill memory address length f (address + i) = some (f i) := by
  have hin : Inside length address (address + i) := inside_iff.mpr ⟨i, hi, rfl⟩
  rw [fill, if_pos hin, Nat.add_sub_cancel_left]

theorem Exchanged.fill {address length : Nat} (f : Nat → α)
    (hfree : ∀ i < length, memory (address + i) = none) :
    Exchanged memory (fill memory address length f) (fun _ => False) (Inside length address) where
  free := by
    intro x hx
    obtain ⟨i, hi, rfl⟩ := inside_iff.mp hx
    exact Or.inr (hfree i hi)
  taken := by
    intro x hx
    rw [Ownership.fill, if_pos hx]
    rfl
  dropped := fun _ hb => absurd hb not_false
  kept := fun hx _ => if_neg hx

theorem Exchanged.clear {address length : Nat} :
    Exchanged memory (clear memory address length) (Inside length address) fun _ => False where
  free := fun ha => absurd ha not_false
  taken := fun ha => absurd ha not_false
  dropped := fun _ hx => if_pos hx
  kept := fun _ hx => if_neg hx

theorem clear_zero (address : Nat) : clear memory address 0 = memory := by
  funext x
  refine if_neg ?_
  unfold Inside
  omega

/-- A region that has been moved and holds the addresses that it held before has not been moved. -/
theorem moved_in_place {old n new m : Nat} {f : Nat → α} (hm : 0 < m)
    (hold : ∀ i < n, (memory (old + i)).isSome)
    (hfree : ∀ i < m, clear memory old n (new + i) = none)
    (hsame : ∀ x, (fill (clear memory old n) new m f x).isSome ↔ (memory x).isSome) :
    new = old ∧ m = n := by
  have hsub : ∀ x, Inside n old x → Inside m new x := by
    intro x hx
    by_contra hout
    obtain ⟨i, hi, rfl⟩ := inside_iff.mp hx
    have hsome := (hsame (old + i)).mpr (hold i hi)
    rw [fill, if_neg hout, clear, if_pos hx] at hsome
    contradiction
  have hsup : ∀ x, Inside m new x → Inside n old x := by
    intro x hx
    by_contra hout
    obtain ⟨i, hi, rfl⟩ := inside_iff.mp hx
    have hnone := hfree i hi
    rw [clear, if_neg hout] at hnone
    have hsome : (memory (new + i)).isSome := by
      rw [← hsame, fill_add f hi]
      rfl
    rw [hnone] at hsome
    contradiction
  have hfirst := hsup new ⟨Nat.le_refl _, by omega⟩
  have hlast := hsup (new + m - 1) ⟨by omega, by omega⟩
  unfold Inside at *
  have hstart := hsub old ⟨by omega, by omega⟩
  have hend := hsub (old + n - 1) ⟨by omega, by omega⟩
  omega

theorem fill_clear_same {address length : Nat} {f : Nat → α}
    (h : ∀ i < length, memory (address + i) = some (f i)) :
    fill (clear memory address length) address length f = memory := by
  funext x
  by_cases hx : Inside length address x
  · obtain ⟨i, hi, rfl⟩ := inside_iff.mp hx
    rw [fill_add f hi, h i hi]
  · rw [fill, if_neg hx, clear, if_neg hx]

end Addresses
end Ownership
