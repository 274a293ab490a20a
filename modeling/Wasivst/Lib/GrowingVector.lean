import Mathlib.Logic.Relation
import Mathlib.Data.List.Basic

/-!
# Vectors that move their elements when they grow

A vector keeps its elements in one block of storage. When the block is full a larger one takes
its place and the elements move there, so a pointer to an element is good as long as the block
is. The capacities alone tell which pointers are good.
-/

set_option autoImplicit false

namespace GrowingVector
variable {α : Type}

/-- The capacity of the next block; `none` when there is no larger one. -/
structure Growth where
  next : Nat → Option Nat
  larger : ∀ {c c' : Nat}, next c = some c' → c < c'

/-- `block` counts the blocks that were given up. -/
structure Vec (α : Type) where
  block : Nat
  capacity : Nat
  elems : List α
  room : elems.length ≤ capacity

structure Pointer where
  block : Nat
  index : Nat
  deriving DecidableEq

namespace Vec

/-- The elements in a larger block. -/
def grow (v : Vec α) (c : Nat) (h : v.capacity < c) : Vec α :=
  ⟨v.block + 1, c, v.elems, Nat.le_trans v.room (Nat.le_of_lt h)⟩

/-- One more element in the block, which has room for it. -/
def append (v : Vec α) (a : α) (h : v.elems.length < v.capacity) : Vec α :=
  { v with
    elems := v.elems ++ [a]
    room := by
      rw [List.length_append]
      exact h }

def push (G : Growth) (v : Vec α) (a : α) : Option (Vec α) :=
  if h : v.elems.length < v.capacity then some (v.append a h)
  else
    match hc : G.next v.capacity with
    | none => none
    | some c => some ((v.grow c (G.larger hc)).append a (Nat.lt_of_le_of_lt v.room (G.larger hc)))

/-- The element with an index, where it lies now. -/
def pointer (v : Vec α) (index : Nat) : Pointer := ⟨v.block, index⟩

/-- The pointer leads to an element. -/
def Good (v : Vec α) (p : Pointer) : Prop := p.block = v.block ∧ p.index < v.elems.length

instance (v : Vec α) (p : Pointer) : Decidable (v.Good p) := instDecidableAnd

/-- The element that a pointer leads to is changed. -/
def update (v : Vec α) (p : Pointer) (f : α → α) : Option (Vec α) :=
  if v.Good p then
    some { v with
      elems := v.elems.modify p.index f
      room := by
        rw [List.length_modify]
        exact v.room }
  else none

variable {G : Growth} {v v' : Vec α} {a : α}

/-- What one more element does: the block stays, or it was full and the next one is larger. -/
theorem push_eq_some (h : v.push G a = some v') :
    v'.elems = v.elems ++ [a] ∧
      (v.elems.length < v.capacity ∧ v'.block = v.block ∧ v'.capacity = v.capacity ∨
        v.elems.length = v.capacity ∧ v'.block = v.block + 1 ∧
          G.next v.capacity = some v'.capacity) := by
  unfold push at h
  split at h
  · rename_i hlt
    obtain rfl := Option.some.inj h
    exact ⟨rfl, .inl ⟨hlt, rfl, rfl⟩⟩
  · rename_i hfull
    have hlen : v.elems.length = v.capacity := Nat.le_antisymm v.room (Nat.not_lt.mp hfull)
    split at h
    · exact absurd h nofun
    · rename_i c hc
      obtain rfl := Option.some.inj h
      exact ⟨rfl, .inr ⟨hlen, rfl, hc⟩⟩

theorem push_isSome (h : v.elems.length < v.capacity ∨ (G.next v.capacity).isSome) :
    ∃ v', v.push G a = some v' := by
  unfold push
  split
  · exact ⟨_, rfl⟩
  · rename_i hfull
    have hnext := h.resolve_left hfull
    split
    · rename_i hnone
      rw [hnone] at hnext
      exact absurd hnext Bool.false_ne_true
    · exact ⟨_, rfl⟩

theorem update_eq_some {p : Pointer} {f : α → α} :
    v.update p f = some v' ↔ v.Good p ∧ v'.block = v.block ∧ v'.capacity = v.capacity ∧
      v'.elems = v.elems.modify p.index f := by
  unfold update
  obtain ⟨block', capacity', elems', room'⟩ := v'
  split
  · rename_i hgood
    simp only [Option.some.injEq, mk.injEq, hgood, true_and, eq_comm]
  · rename_i hbad
    simp [hbad]

end Vec

/-! ## Which pointers are good -/

/-- The capacities of the blocks, from the first one on. -/
def Capacity (G : Growth) (first n : Nat) : Prop :=
  Relation.ReflTransGen (fun c c' => G.next c = some c') first n

variable {G : Growth}

theorem Capacity.le {c n : Nat} (h : Capacity G c n) : c ≤ n := by
  induction h with
  | refl => exact Nat.le_refl c
  | tail _ hstep ih => exact Nat.le_trans ih (Nat.le_of_lt (G.larger hstep))

theorem Capacity.comparable {first m n : Nat} (hm : Capacity G first m) (hn : Capacity G first n) :
    Capacity G m n ∨ Capacity G n m :=
  Relation.ReflTransGen.total_of_right_unique
    (fun _ _ _ h h' => Option.some.inj (h.symm.trans h')) hm hn

/-- A block larger than another is at least as large as the one after it. -/
theorem Capacity.next_le {first c c' n : Nat} (hc : Capacity G first c) (hn : Capacity G first n)
    (hnext : G.next c = some c') (hlt : c < n) : c' ≤ n := by
  rcases hc.comparable hn with h | h
  · cases Relation.ReflTransGen.cases_head h with
    | inl heq => omega
    | inr hhead =>
      obtain ⟨d, hd, hrest⟩ := hhead
      obtain rfl := Option.some.inj (hnext.symm.trans hd)
      exact Capacity.le hrest
  · have hle := Capacity.le h
    omega

/-- What holds of a vector whose first block had the capacity `first`: the smaller blocks were
all full. -/
structure Vec.From (G : Growth) (first : Nat) (v : Vec α) : Prop where
  capacity : Capacity G first v.capacity
  outgrown : ∀ n, Capacity G first n → n < v.capacity → n < v.elems.length

theorem Vec.From.refl (v : Vec α) : v.From G v.capacity where
  capacity := .refl
  outgrown _ hn hlt := absurd (Capacity.le hn) (Nat.not_le.mpr hlt)

theorem Vec.From.push {first : Nat} {v v' : Vec α} {a : α} (hv : v.From G first)
    (h : v.push G a = some v') : v'.From G first := by
  obtain ⟨helems, ⟨_, _, hcap⟩ | ⟨hfull, _, hnext⟩⟩ := Vec.push_eq_some h
  · refine ⟨hcap ▸ hv.capacity, ?_⟩
    intro n hn hlt
    have hold := hv.outgrown n hn (hcap ▸ hlt)
    rw [helems, List.length_append]
    omega
  · refine ⟨hv.capacity.tail hnext, ?_⟩
    intro n hn hlt
    have hle : n ≤ v.capacity := by
      by_contra hgt
      have hlarge := hv.capacity.next_le hn hnext (Nat.not_le.mp hgt)
      omega
    rw [helems, List.length_append]
    exact Nat.lt_succ_of_le (hfull ▸ hle)

theorem Vec.From.update {first : Nat} {v v' : Vec α} {p : Pointer} {f : α → α}
    (hv : v.From G first) (h : v.update p f = some v') : v'.From G first := by
  obtain ⟨_, _, hcap, helems⟩ := Vec.update_eq_some.mp h
  refine ⟨hcap ▸ hv.capacity, ?_⟩
  intro n hn hlt
  rw [helems, List.length_modify]
  exact hv.outgrown n hn (hcap ▸ hlt)

/-- The element did not move when the vector grew to `size` elements. -/
def Unmoved (G : Growth) (first index size : Nat) : Prop :=
  ∀ n, Capacity G first n → ¬ (index < n ∧ n < size)

/-- A pointer to an element, taken when it was appended, is good while no block was outgrown. -/
structure Tracks (G : Growth) (first : Nat) (v : Vec α) (p : Pointer) : Prop where
  inside : p.index < v.elems.length
  block_le : p.block ≤ v.block
  good_iff : p.block = v.block ↔ Unmoved G first p.index v.elems.length

theorem Tracks.good {first : Nat} {v : Vec α} {p : Pointer} (h : Tracks G first v p) :
    v.Good p ↔ Unmoved G first p.index v.elems.length :=
  (and_iff_left h.inside).trans h.good_iff

theorem Tracks.push {first : Nat} {v v' : Vec α} {a : α} {p : Pointer} (hp : Tracks G first v p)
    (hv : v.From G first) (h : v.push G a = some v') : Tracks G first v' p := by
  have hinside := hp.inside
  have hblock := hp.block_le
  obtain ⟨helems, ⟨hroom, hsame, _⟩ | ⟨hfull, hmoved, _⟩⟩ := Vec.push_eq_some h
  · have hlen : v'.elems.length = v.elems.length + 1 := by rw [helems, List.length_append]; rfl
    refine ⟨by omega, by omega, ?_⟩
    rw [hsame, hp.good_iff, hlen]
    -- the block has room, so it is not the size of the vector that is one of the capacities
    have hnot : ¬ Capacity G first v.elems.length := by
      intro hcap
      exact absurd (hv.outgrown _ hcap hroom) (Nat.lt_irrefl _)
    constructor
    · rintro hstay n hn ⟨hlow, hhigh⟩
      have hne : n ≠ v.elems.length := fun heq => hnot (heq ▸ hn)
      exact hstay n hn ⟨hlow, by omega⟩
    · rintro hstay n hn ⟨hlow, hhigh⟩
      exact hstay n hn ⟨hlow, by omega⟩
  · have hlen : v'.elems.length = v.elems.length + 1 := by rw [helems, List.length_append]; rfl
    refine ⟨by omega, by omega, ?_⟩
    constructor
    · intro heq
      omega
    · intro hstay
      exact absurd ⟨hfull ▸ hinside, by omega⟩ (hstay v.capacity hv.capacity)

/-- The pointer to the new element. -/
theorem Tracks.appended {v v' : Vec α} {a : α} (first : Nat) (h : v.push G a = some v') :
    Tracks G first v' (v'.pointer v.elems.length) := by
  have hlen : v'.elems.length = v.elems.length + 1 := by
    rw [(Vec.push_eq_some h).1, List.length_append]
    rfl
  refine ⟨?_, Nat.le_refl _, iff_of_true rfl ?_⟩
  · rw [hlen]
    exact Nat.lt_succ_self _
  · intro n _ hbetween
    have hlow : v.elems.length < n := hbetween.1
    omega

theorem Tracks.update {first : Nat} {v v' : Vec α} {p q : Pointer} {f : α → α}
    (hp : Tracks G first v p) (h : v.update q f = some v') : Tracks G first v' p := by
  obtain ⟨_, hblock, _, helems⟩ := Vec.update_eq_some.mp h
  have hlen : v'.elems.length = v.elems.length := by rw [helems, List.length_modify]
  exact ⟨hlen ▸ hp.inside, hblock ▸ hp.block_le, by rw [hblock, hlen]; exact hp.good_iff⟩

end GrowingVector
