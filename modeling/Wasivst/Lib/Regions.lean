import Mathlib.Data.List.Basic

/-!
# Stores into regions of a memory

A memory is a list. Stores of equally long data into regions that lie apart leave in each region
what was stored there, in whatever order they are made, and leave everything else alone.
-/

set_option autoImplicit false

namespace Regions
variable {α κ : Type}

def store (m : List α) (offset : Nat) (data : List α) : Option (List α) :=
  if offset + data.length ≤ m.length then
    some (m.take offset ++ data ++ m.drop (offset + data.length))
  else none

def load (m : List α) (offset n : Nat) : Option (List α) :=
  if offset + n ≤ m.length then some ((m.drop offset).take n) else none

def Inside (n offset a : Nat) : Prop := offset ≤ a ∧ a < offset + n

/-- Two regions of length `n`. -/
def Apart (n a b : Nat) : Prop := a + n ≤ b ∨ b + n ≤ a

theorem Apart.symm {n a b : Nat} (h : Apart n a b) : Apart n b a := Or.symm h

theorem Apart.not_inside {n a b i : Nat} (h : Apart n a b) (hi : Inside n a i) : ¬ Inside n b i := by
  unfold Apart Inside at *
  omega

theorem store_of_le {m data : List α} {offset : Nat} (h : offset + data.length ≤ m.length) :
    ∃ m', store m offset data = some m' ∧ m'.length = m.length := by
  refine ⟨_, if_pos h, ?_⟩
  simp only [List.length_append, List.length_take, List.length_drop]
  omega

/-- A store right behind a prefix. -/
theorem store_append {p m data : List α} (h : data.length ≤ m.length) :
    store (p ++ m) p.length data = some (p ++ data ++ m.drop data.length) := by
  have hroom : p.length + data.length ≤ (p ++ m).length := by
    rw [List.length_append]
    exact Nat.add_le_add_left h _
  have hrest : (p ++ m).drop (p.length + data.length) = m.drop data.length := by
    rw [← List.drop_drop, List.drop_left]
  rw [store, if_pos hroom, List.take_left, hrest]

theorem load_store {m m' data : List α} {offset : Nat} (h : store m offset data = some m') :
    load m' offset data.length = some data := by
  unfold store at h
  split_ifs at h with hle
  obtain rfl := Option.some.inj h
  have htake : (m.take offset).length = offset := by
    rw [List.length_take]
    omega
  have hroom : offset + data.length ≤
      (m.take offset ++ data ++ m.drop (offset + data.length)).length := by
    simp only [List.length_append, htake]
    omega
  rw [load, if_pos hroom, List.append_assoc, List.drop_left' htake, List.take_left]

theorem getElem?_store {m m' data : List α} {offset i : Nat}
    (h : store m offset data = some m') (hi : ¬ Inside data.length offset i) : m'[i]? = m[i]? := by
  unfold store at h
  unfold Inside at hi
  split_ifs at h with hle
  obtain rfl := Option.some.inj h
  by_cases hlt : i < offset
  · rw [List.append_assoc, List.getElem?_append_left (by rw [List.length_take]; omega),
      List.getElem?_take_of_lt hlt]
  · rw [List.getElem?_append_right, List.getElem?_drop]
    · congr 1
      simp only [List.length_append, List.length_take]
      omega
    · simp only [List.length_append, List.length_take]
      omega

/-- A region reads the same in memories that agree on it. -/
theorem load_congr {m m' : List α} {offset n : Nat} (hlen : m'.length = m.length)
    (h : ∀ i, Inside n offset i → m'[i]? = m[i]?) : load m' offset n = load m offset n := by
  have hbytes : (m'.drop offset).take n = (m.drop offset).take n := by
    apply List.ext_getElem?
    intro i
    simp only [List.getElem?_take, List.getElem?_drop]
    split_ifs with hi
    · exact h _ ⟨Nat.le_add_right _ _, by omega⟩
    · rfl
  unfold load
  rw [hlen, hbytes]

variable (offset : κ → Nat) (data : κ → List α)

def storeAll (m : List α) (ks : List κ) : Option (List α) :=
  ks.foldlM (fun m k => store m (offset k) (data k)) m

structure Stored (n : Nat) (m m' : List α) (ks : List κ) : Prop where
  length : m'.length = m.length
  regions : ∀ k ∈ ks, load m' (offset k) n = some (data k)
  outside : ∀ i, (∀ k ∈ ks, ¬ Inside n (offset k) i) → m'[i]? = m[i]?

variable {offset data}

theorem foldlM_eq_storeAll {f : List α → κ → Option (List α)} {ks : List κ}
    (h : ∀ m, ∀ k ∈ ks, f m k = store m (offset k) (data k)) (m : List α) :
    ks.foldlM f m = storeAll offset data m ks := by
  unfold storeAll
  induction ks generalizing m with
  | nil => rfl
  | cons k ks ih =>
    rw [List.foldlM_cons, List.foldlM_cons, h m k List.mem_cons_self]
    congr 1
    funext m'
    exact ih (fun m j hj => h m j (List.mem_cons_of_mem k hj)) m'

theorem storeAll_stored {n : Nat} {m : List α} {ks : List κ} (hdata : ∀ k ∈ ks, (data k).length = n)
    (hroom : ∀ k ∈ ks, offset k + n ≤ m.length)
    (hapart : ks.Pairwise fun j k => Apart n (offset j) (offset k)) :
    ∃ m', storeAll offset data m ks = some m' ∧ Stored offset data n m m' ks := by
  induction ks generalizing m with
  | nil => exact ⟨m, rfl, rfl, fun _ h => absurd h List.not_mem_nil, fun _ _ => rfl⟩
  | cons k ks ih =>
    rw [List.forall_mem_cons] at hdata hroom
    rw [List.pairwise_cons] at hapart
    have hfirst : offset k + (data k).length ≤ m.length := hdata.1.symm ▸ hroom.1
    obtain ⟨m₁, hm₁, hlen₁⟩ := store_of_le hfirst
    have hroom₁ : ∀ j ∈ ks, offset j + n ≤ m₁.length := by
      rw [hlen₁]
      exact hroom.2
    obtain ⟨m', hm', hlen, hregions, houtside⟩ := ih hdata.2 hroom₁ hapart.2
    refine ⟨m', by simp only [storeAll, List.foldlM_cons, hm₁]; exact hm', hlen.trans hlen₁, ?_, ?_⟩
    · rw [List.forall_mem_cons]
      refine ⟨?_, hregions⟩
      have hsame : load m' (offset k) n = load m₁ (offset k) n :=
        load_congr hlen fun i hi => houtside i fun j hj => (hapart.1 j hj).not_inside hi
      rw [hsame, ← hdata.1]
      exact load_store hm₁
    · intro i hi
      rw [List.forall_mem_cons] at hi
      rw [houtside i hi.2]
      exact getElem?_store hm₁ (hdata.1.symm ▸ hi.1)

/-- The places and the data are looked up first; the data may be shorter than its region. -/
def placeAll (place : κ → Option Nat) (data : κ → Option (List α)) (m : List α) (ks : List κ) :
    Option (List α) :=
  ks.foldlM (fun m k => do store m (← place k) (← data k)) m

theorem placeAll_stored {place : κ → Option Nat} {data : κ → Option (List α)} {n : Nat}
    {m : List α} {ks : List κ}
    (hks : ∀ k ∈ ks, ∃ o d, place k = some o ∧ data k = some d ∧ d.length ≤ n ∧ o + n ≤ m.length)
    (hapart : ks.Pairwise fun j k => ∀ a b, place j = some a → place k = some b → Apart n a b) :
    ∃ m', placeAll place data m ks = some m' ∧ m'.length = m.length ∧
      (∀ k ∈ ks, ∀ o d, place k = some o → data k = some d → load m' o d.length = some d) ∧
      ∀ i, (∀ k ∈ ks, ∀ o, place k = some o → ¬ Inside n o i) → m'[i]? = m[i]? := by
  induction ks generalizing m with
  | nil => exact ⟨m, rfl, rfl, fun _ h => absurd h List.not_mem_nil, fun _ _ => rfl⟩
  | cons k ks ih =>
    rw [List.forall_mem_cons] at hks
    rw [List.pairwise_cons] at hapart
    obtain ⟨⟨o, d, ho, hd, hlen, hroom⟩, hks⟩ := hks
    obtain ⟨m₁, hm₁, hlen₁⟩ : ∃ m₁, store m o d = some m₁ ∧ m₁.length = m.length :=
      store_of_le (by omega)
    rw [← hlen₁] at hks
    obtain ⟨m', hm', hlen', hloads, houtside⟩ := ih hks hapart.2
    have hkept : ∀ i, Inside n o i → m'[i]? = m₁[i]? := by
      intro i hi
      apply houtside
      intro j hj p hp
      exact (hapart.1 j hj o p ho hp).not_inside hi
    have hstep : placeAll place data m (k :: ks) = placeAll place data m₁ ks := by
      simp only [placeAll, List.foldlM_cons, ho, hd, hm₁, Option.bind_eq_bind, Option.bind_some]
    refine ⟨m', hstep.trans hm', hlen'.trans hlen₁, ?_, ?_⟩
    · rw [List.forall_mem_cons]
      refine ⟨?_, hloads⟩
      intro o' d' ho' hd'
      obtain rfl := Option.some.inj (ho.symm.trans ho')
      obtain rfl := Option.some.inj (hd.symm.trans hd')
      have hsame : load m' o d.length = load m₁ o d.length := by
        apply load_congr hlen'
        intro i hi
        exact hkept i ⟨hi.1, by unfold Inside at hi; omega⟩
      rw [hsame]
      exact load_store hm₁
    · intro i hi
      rw [List.forall_mem_cons] at hi
      rw [houtside i hi.2]
      apply getElem?_store hm₁
      intro hin
      exact hi.1 o ho ⟨hin.1, by unfold Inside at hin; omega⟩

/-- Regions that are not empty and lie apart have room. -/
theorem length_mul_le {n size : Nat} {offsets : List Nat} (hn : 0 < n)
    (hroom : ∀ o ∈ offsets, o + n ≤ size) (hapart : offsets.Pairwise (Apart n)) :
    offsets.length * n ≤ size := by
  have hquot : ∀ a b, a + n ≤ b → a / n < b / n := by
    intro a b hab
    have hle := Nat.div_le_div_right (c := n) hab
    rw [Nat.add_div_right _ hn] at hle
    exact hle
  have hnodup : (offsets.map (· / n)).Nodup := by
    rw [List.Nodup, List.pairwise_map]
    apply hapart.imp
    intro a b hab
    rcases hab with h | h
    · exact Nat.ne_of_lt (hquot a b h)
    · exact Nat.ne_of_gt (hquot b a h)
  have hsub : offsets.map (· / n) ⊆ List.range (size / n) := by
    intro q hq
    obtain ⟨o, ho, rfl⟩ := List.mem_map.mp hq
    exact List.mem_range.mpr (hquot o size (hroom o ho))
  have hle := List.Nodup.length_le_of_subset hnodup hsub
  rw [List.length_map, List.length_range] at hle
  exact Nat.le_trans (Nat.mul_le_mul_right n hle) (Nat.div_mul_le_self size n)

end Regions
