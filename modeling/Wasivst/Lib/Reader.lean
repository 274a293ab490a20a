import Mathlib.Data.List.Basic

/-!
# Readers that consume an exact prefix

A `Reader` takes symbols from the front of a finite stream or fails. `Consumes r bs a` says
that on every stream starting with `bs` it takes precisely these symbols and returns `a`;
`Takes k r` that it never succeeds on fewer than `k`. The rules for both follow the monad, so
that a reader written with `do` is analysed clause by clause.
-/

set_option autoImplicit false

namespace StreamReader

abbrev Reader (β ε α : Type) := StateT (List β) (Except ε) α

variable {β ε α γ : Type}

def take (e : ε) (n : Nat) : Reader β ε (List β) := fun s =>
  if s.length < n then .error e else .ok (s.take n, s.drop n)

def Consumes (r : Reader β ε α) (bs : List β) (a : α) : Prop :=
  ∀ rest, r.run (bs ++ rest) = .ok (a, rest)

theorem consumes_take (e : ε) {n : Nat} {bs : List β} (hn : bs.length = n) :
    Consumes (take e n) bs bs := by
  subst hn
  intro rest
  have hlen : ¬ (bs ++ rest).length < bs.length := by
    rw [List.length_append]
    omega
  simp only [StateT.run, take, if_neg hlen, List.take_left, List.drop_left]

namespace Consumes

theorem pure (a : α) : Consumes (pure a : Reader β ε α) [] a := fun _ => rfl

theorem bind {r : Reader β ε α} {f : α → Reader β ε γ} {bs cs : List β} {a : α} {c : γ}
    (hr : Consumes r bs a) (hf : Consumes (f a) cs c) : Consumes (r >>= f) (bs ++ cs) c := by
  intro rest
  have h1 : r.run (bs ++ (cs ++ rest)) = .ok (a, cs ++ rest) := hr (cs ++ rest)
  simp only [StateT.run_bind, List.append_assoc, h1]
  exact hf rest

theorem map {r : Reader β ε α} (f : α → γ) {bs : List β} {a : α} (hr : Consumes r bs a) :
    Consumes (f <$> r) bs (f a) := by
  intro rest
  simp only [StateT.run_map, hr rest]
  rfl

end Consumes

/-! ## How much a reader takes -/

def Takes (k : Nat) (r : Reader β ε α) : Prop :=
  ∀ s a rest, r.run s = .ok (a, rest) → rest.length + k ≤ s.length

namespace Takes

theorem pure (a : α) : Takes 0 (pure a : Reader β ε α) := by
  intro s b rest h
  cases h
  exact Nat.le_refl _

theorem bind {j k : Nat} {r : Reader β ε α} {f : α → Reader β ε γ} (hr : Takes j r)
    (hf : ∀ a, Takes k (f a)) : Takes (j + k) (r >>= f) := by
  intro s c rest h
  rw [StateT.run_bind] at h
  cases h1 : r.run s with
  | error e => rw [h1] at h; cases h
  | ok v =>
    rw [h1] at h
    have hj := hr s v.1 v.2 h1
    have hk := hf v.1 v.2 c rest h
    omega

theorem map {k : Nat} {r : Reader β ε α} (f : α → γ) (hr : Takes k r) : Takes k (f <$> r) := by
  rw [map_eq_pure_bind]
  exact hr.bind fun a => Takes.pure (f a)

theorem mono {j k : Nat} {r : Reader β ε α} (hr : Takes k r) (hjk : j ≤ k) : Takes j r :=
  fun s a rest h => Nat.le_trans (Nat.add_le_add_left hjk _) (hr s a rest h)

theorem take (e : ε) (n : Nat) : Takes n (take e n : Reader β ε (List β)) := by
  intro s bs rest h
  simp only [StateT.run, StreamReader.take] at h
  split_ifs at h with hn
  cases h
  rw [List.length_drop]
  omega

theorem nil_ne {r : Reader β ε α} (hr : Takes 1 r) (a : α) (rest : List β) :
    r.run [] ≠ .ok (a, rest) := by
  intro h
  have hle := hr _ _ _ h
  simp at hle

end Takes

/-! ## How a reader fails -/

def FailsWith (e : ε) (r : Reader β ε α) : Prop := ∀ s e', r.run s = .error e' → e' = e

namespace FailsWith
variable {e : ε}

theorem pure (a : α) : FailsWith e (pure a : Reader β ε α) := by
  intro s e' h
  cases h

theorem bind {r : Reader β ε α} {f : α → Reader β ε γ} (hr : FailsWith e r)
    (hf : ∀ a, FailsWith e (f a)) : FailsWith e (r >>= f) := by
  intro s e' h
  rw [StateT.run_bind] at h
  cases h1 : r.run s with
  | error e1 =>
    rw [h1] at h
    cases h
    exact hr s _ h1
  | ok v =>
    rw [h1] at h
    exact hf v.1 v.2 e' h

theorem map {r : Reader β ε α} (f : α → γ) (hr : FailsWith e r) : FailsWith e (f <$> r) := by
  rw [map_eq_pure_bind]
  exact hr.bind fun a => FailsWith.pure (f a)

theorem take (n : Nat) : FailsWith e (take e n : Reader β ε (List β)) := by
  intro s e' h
  simp only [StateT.run, StreamReader.take] at h
  split_ifs at h with hn
  exact (Except.error.inj h).symm

end FailsWith

/-! ## Reading until the stream ends -/

/-- `r` again and again until it fails; every value stands with the input it left. -/
def readAll (r : Reader β ε α) : Nat → List β → List (α × List β)
  | 0, _ => []
  | n + 1, s =>
    match r.run s with
    | .error _ => []
    | .ok (a, rest) => (a, rest) :: readAll r n rest

/-- The values of a stream laid out piece by piece, each with the images of the later pieces. -/
def pieces {κ : Type} (image : κ → List β) (value : κ → α) : List κ → List (α × List β)
  | [] => []
  | k :: ks => (value k, ks.flatMap image) :: pieces image value ks

/-- A reader of such pieces takes the stream apart at their boundaries and stops at its end. -/
theorem readAll_of_consumes {r : Reader β ε α} (hr : Takes 1 r)
    {κ : Type} (image : κ → List β) (value : κ → α)
    (h : ∀ k, Consumes r (image k) (value k)) (ks : List κ) (n : Nat)
    (hn : (ks.flatMap image).length ≤ n) :
    readAll r n (ks.flatMap image) = pieces image value ks := by
  induction ks generalizing n with
  | nil =>
    cases n with
    | zero => rfl
    | succ n =>
      cases he : r.run ([] : List β) with
      | error e => simp [readAll, pieces, he]
      | ok v => exact absurd he (hr.nil_ne v.1 v.2)
  | cons k ks ih =>
    have hk : r.run (image k ++ ks.flatMap image) = .ok (value k, ks.flatMap image) := h k _
    have hpos := hr _ _ _ hk
    rw [List.flatMap_cons] at hn ⊢
    rw [List.length_append] at hpos hn
    obtain ⟨m, rfl⟩ : ∃ m, n = m + 1 := ⟨n - 1, by omega⟩
    unfold readAll
    rw [hk, pieces]
    simp only
    rw [ih m (by omega)]

end StreamReader
