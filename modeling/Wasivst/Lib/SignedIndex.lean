import Mathlib.Algebra.Group.Nat.Defs
import Mathlib.Data.List.Basic
import Mathlib.Tactic.SplitIfs

/-!
# Signed indices into containers with unsigned sizes

An index is an `int32`, and the size of a container is compared with it after a cast. An access
function is right when it gives the element that is there and reports failure where there is none.
-/

set_option autoImplicit false

namespace SignedIndex
variable {ε α β : Type}

/-- What an access comes to; `outside` is an access where there is no element. -/
inductive Access (ε α : Type)
  | element (a : α)
  | failure (e : ε)
  | outside
  deriving DecidableEq

def Access.map (f : α → β) : Access ε α → Access ε β
  | .element a => .element (f a)
  | .failure e => .failure e
  | .outside => .outside

def Access.bind : Access ε α → (α → Access ε β) → Access ε β
  | .element a, f => f a
  | .failure e, _ => .failure e
  | .outside, _ => .outside

/-- The access found what there is. -/
def Access.Finds : Access ε α → Option α → Prop
  | r, some a => r = .element a
  | r, none => ∃ e, r = .failure e

/-- What there is at an index. -/
def elementAt (xs : List α) (index : Int32) : Option α :=
  if index < 0 then none else xs[index.toNatClampNeg]?

/-- `xs[index]`; a negative index becomes a size beyond all containers. -/
def subscript (xs : List α) (index : Int32) : Access ε α :=
  match elementAt xs index with
  | some a => .element a
  | none => .outside

/-- Both ends are checked. -/
def checked (e : ε) (xs : List α) (index : Int32) : Access ε α :=
  if index < 0 ∨ Int32.ofNat xs.length ≤ index then .failure e else subscript xs index

/-- Only the upper end is checked. -/
def checkedAbove (e : ε) (xs : List α) (index : Int32) : Access ε α :=
  if index < Int32.ofNat xs.length then subscript xs index else .failure e

/-- An index that the cast of the size does not exclude. -/
def Counted (size : Nat) (index : Int32) : Prop :=
  size < 2 ^ 31 ∨ index < Int32.ofNat size

/-! ## The cast of a size -/

theorem toNatClampNeg_ofNat_le (n : Nat) : (Int32.ofNat n).toNatClampNeg ≤ n := by
  by_cases hn : n < 2 ^ 31
  · exact Nat.le_of_eq (Int32.toNatClampNeg_ofNat_of_lt hn)
  · have hlt := Int32.toNatClampNeg_lt (Int32.ofNat n)
    omega

theorem toNatClampNeg_lt_of_lt {i j : Int32} (hi : ¬ i < 0) (h : i < j) :
    i.toNatClampNeg < j.toNatClampNeg := by
  rw [Int32.lt_iff_toInt_lt] at hi h
  rw [Int32.toInt_zero] at hi
  unfold Int32.toNatClampNeg
  omega

theorem lt_of_counted {n : Nat} {index : Int32} (hneg : ¬ index < 0)
    (h : index < Int32.ofNat n) : index.toNatClampNeg < n :=
  Nat.lt_of_lt_of_le (toNatClampNeg_lt_of_lt hneg h) (toNatClampNeg_ofNat_le n)

theorem le_of_cast_le {n : Nat} {index : Int32} (hn : n < 2 ^ 31)
    (h : Int32.ofNat n ≤ index) : n ≤ index.toNatClampNeg := by
  have hle := Int32.toNatClampNeg_le h
  rwa [Int32.toNatClampNeg_ofNat_of_lt hn] at hle

theorem cast_nonneg {n : Nat} (hn : n < 2 ^ 31) : ¬ Int32.ofNat n < 0 :=
  Int32.not_lt.mpr (Int32.zero_le_ofNat_of_lt hn)

/-! ## Elements -/

theorem elementAt_of_neg {xs : List α} {index : Int32} (h : index < 0) : elementAt xs index = none :=
  if_pos h

theorem elementAt_map (f : α → β) (xs : List α) (index : Int32) :
    elementAt (xs.map f) index = (elementAt xs index).map f := by
  unfold elementAt
  split_ifs
  · rfl
  · exact List.getElem?_map

theorem elementAt_ofNat {n : Nat} (hn : n < 2 ^ 31) (xs : List α) :
    elementAt xs (Int32.ofNat n) = xs[n]? := by
  unfold elementAt
  rw [if_neg (cast_nonneg hn), Int32.toNatClampNeg_ofNat_of_lt hn]

theorem elementAt_isSome {xs : List α} {index : Int32} (hneg : ¬ index < 0)
    (h : index.toNatClampNeg < xs.length) : ∃ a, elementAt xs index = some a :=
  ⟨_, (if_neg hneg).trans (List.getElem?_eq_getElem h)⟩

theorem elementAt_eq_none {xs : List α} {index : Int32} (h : xs.length ≤ index.toNatClampNeg) :
    elementAt xs index = none := by
  unfold elementAt
  split_ifs
  · rfl
  · exact List.getElem?_eq_none h

theorem subscript_map (f : α → β) (xs : List α) (index : Int32) :
    (subscript (xs.map f) index : Access ε β) = (subscript xs index).map f := by
  unfold subscript
  rw [elementAt_map]
  cases elementAt xs index <;> rfl

theorem checked_map (e : ε) (f : α → β) (xs : List α) (index : Int32) :
    checked e (xs.map f) index = (checked e xs index).map f := by
  unfold checked
  rw [List.length_map]
  split_ifs
  · rfl
  · exact subscript_map f xs index

/-! ## Which checks are right -/

theorem subscript_finds {xs : List α} {index : Int32} (hneg : ¬ index < 0)
    (h : index.toNatClampNeg < xs.length) :
    (subscript xs index : Access ε α).Finds (elementAt xs index) := by
  obtain ⟨a, ha⟩ := elementAt_isSome hneg h
  unfold subscript
  rw [ha]
  rfl

/-- A failure is right for an index that the cast excludes only when the cast is exact. -/
theorem failure_finds_iff {e : ε} {xs : List α} {index : Int32} (hneg : ¬ index < 0)
    (h : Int32.ofNat xs.length ≤ index) :
    (Access.failure e).Finds (elementAt xs index) ↔ xs.length < 2 ^ 31 := by
  constructor
  · intro hfinds
    by_contra hlarge
    have hlt := Int32.toNatClampNeg_lt index
    obtain ⟨a, ha⟩ : ∃ a, elementAt xs index = some a := elementAt_isSome hneg (by omega)
    rw [ha] at hfinds
    exact absurd hfinds nofun
  · intro hsmall
    rw [elementAt_eq_none (le_of_cast_le hsmall h)]
    exact ⟨e, rfl⟩

theorem checked_finds_iff (e : ε) (xs : List α) (index : Int32) :
    (checked e xs index).Finds (elementAt xs index) ↔ index < 0 ∨ Counted xs.length index := by
  unfold checked Counted
  by_cases hneg : index < 0
  · rw [if_pos (.inl hneg), elementAt_of_neg hneg]
    exact iff_of_true ⟨e, rfl⟩ (.inl hneg)
  · by_cases hcast : Int32.ofNat xs.length ≤ index
    · rw [if_pos (.inr hcast), failure_finds_iff hneg hcast]
      simp [hneg, Int32.not_lt.mpr hcast]
    · have hlt := Int32.not_le.mp hcast
      rw [if_neg (not_or.mpr ⟨hneg, hcast⟩)]
      exact iff_of_true (subscript_finds hneg (lt_of_counted hneg hlt)) (.inr (.inr hlt))

/-- A negative index is seen by the cast of a large size only. -/
theorem checkedAbove_finds_iff (e : ε) (xs : List α) (index : Int32) :
    (checkedAbove e xs index).Finds (elementAt xs index) ↔
      if index < 0 then Int32.ofNat xs.length ≤ index else Counted xs.length index := by
  unfold checkedAbove Counted
  by_cases hneg : index < 0
  · rw [if_pos hneg, elementAt_of_neg hneg]
    by_cases hlt : index < Int32.ofNat xs.length
    · rw [if_pos hlt]
      unfold subscript
      rw [elementAt_of_neg hneg]
      exact iff_of_false nofun (Int32.not_le.mpr hlt)
    · rw [if_neg hlt]
      exact iff_of_true ⟨e, rfl⟩ (Int32.not_lt.mp hlt)
  · rw [if_neg hneg]
    by_cases hlt : index < Int32.ofNat xs.length
    · rw [if_pos hlt]
      exact iff_of_true (subscript_finds hneg (lt_of_counted hneg hlt)) (.inr hlt)
    · rw [if_neg hlt, failure_finds_iff hneg (Int32.not_lt.mp hlt)]
      simp [hlt]

/-! ## Optional elements -/

/-- An element may be missing although its index exists. -/
def recorded (e e' : ε) (xs : List (Option α)) (index : Int32) : Access ε α :=
  (checked e xs index).bind fun
    | some a => .element a
    | none => .failure e'

/-- What is not there may also be excluded by the cast. -/
theorem recorded_finds_iff (e e' : ε) (xs : List (Option α)) (index : Int32) :
    (recorded e e' xs index).Finds (elementAt xs index).join ↔
      index < 0 ∨ Counted xs.length index ∨ (elementAt xs index).join = none := by
  by_cases hright : index < 0 ∨ Counted xs.length index
  · refine iff_of_true ?_ (or_assoc.mp (.inl hright))
    have hfinds := (checked_finds_iff e xs index).mpr hright
    unfold recorded
    cases hx : elementAt xs index with
    | none =>
      rw [hx] at hfinds
      obtain ⟨e₀, he₀⟩ := hfinds
      rw [he₀]
      exact ⟨e₀, rfl⟩
    | some o =>
      rw [hx] at hfinds
      rw [show checked e xs index = .element o from hfinds]
      cases o with
      | none => exact ⟨e', rfl⟩
      | some a => rfl
  · obtain ⟨hneg, hcounted⟩ := not_or.mp hright
    have hcast : Int32.ofNat xs.length ≤ index :=
      Int32.not_lt.mp fun hlt => hcounted (.inr hlt)
    have hfail : recorded e e' xs index = .failure e := by
      unfold recorded checked
      rw [if_pos (.inr hcast)]
      rfl
    rw [hfail]
    cases (elementAt xs index).join with
    | none => exact iff_of_true ⟨e, rfl⟩ (.inr (.inr rfl))
    | some a => simp [Access.Finds, hneg, hcounted]

end SignedIndex
