import Mathlib.Logic.Function.Basic
import Wasivst.Lib.Transition

/-!
# Replies matched by key

A caller files a continuation under a key of its own choice and a server replies to the calls
in order. A reply carries no call number, only the key as it comes back from the server,
`norm k` for `k`; it runs and removes the continuation found under that key. Every call gets
its own reply as long as keys survive the way and no two open calls share one, and in a history
in which every call has been replied to, only then.
-/

set_option autoImplicit false

namespace Correlation
open Transition

/-- Calls are numbered from 0; `settled` lists the continuations run, with what they were given. -/
structure State (K V : Type) where
  calls : List K
  table : K → Option Nat
  replies : List V
  settled : List (Nat × V)

inductive Action (K V : Type) where
  | call (k : K)
  | reply (v : V)

namespace State
variable {K V : Type}

def given (s : State K V) (i : Nat) : List V :=
  s.settled.filterMap fun r => if r.1 = i then some r.2 else none

/-- Every call has been given its own reply, once, or nothing if there is none yet. -/
def Settled (s : State K V) : Prop := ∀ i, s.given i = (s.replies[i]?).toList

end State

variable {K V : Type} [DecidableEq K]

def State.call (s : State K V) (k : K) : State K V :=
  { s with
    calls := s.calls ++ [k]
    table := Function.update s.table k (some s.calls.length) }

def State.settle (s : State K V) (k : K) (v : V) : State K V :=
  { s with
    table := Function.update s.table k none
    settled := s.settled ++ ((s.table k).map fun i => (i, v)).toList }

variable (norm : K → K)

def step (s : State K V) : Action K V → Option (State K V)
  | .call k => some (s.call k)
  | .reply v =>
    match s.calls[s.replies.length]? with
    | some k => some { s.settle (norm k) v with replies := s.replies ++ [v] }
    | none => none

def init : State K V := ⟨[], fun _ => none, [], []⟩

/-- The key comes back unchanged and no call under it is still open. -/
def Fresh (s : State K V) : Action K V → Prop
  | .call k => norm k = k ∧ k ∉ s.calls.drop s.replies.length
  | .reply _ => True

theorem given_settle (s : State K V) (k : K) (v : V) (i : Nat) :
    (s.settle k v).given i = s.given i ++ if s.table k = some i then [v] else [] := by
  unfold State.given State.settle
  rw [List.filterMap_append]
  congr 1
  cases h : s.table k with
  | none => simp
  | some j =>
    by_cases hj : j = i <;> simp [hj]

/-! ## Fresh calls are answered -/

structure Inv (s : State K V) : Prop where
  replies_le : s.replies.length ≤ s.calls.length
  settled : s.Settled
  filed : ∀ i k, s.replies.length ≤ i → s.calls[i]? = some k → norm k = k ∧ s.table k = some i
  owner : ∀ i k, s.table k = some i → s.replies.length ≤ i ∧ s.calls[i]? = some k

omit [DecidableEq K] in
theorem inv_init : Inv norm (init : State K V) := by
  refine ⟨Nat.le_refl _, fun i => rfl, ?_, ?_⟩
  · intro i k _ hk
    simp [init] at hk
  · intro i k hk
    cases hk

variable {norm}

theorem inv_call {s : State K V} (hs : Inv norm s) {k : K} (hk : norm k = k)
    (hfresh : k ∉ s.calls.drop s.replies.length) : Inv norm (s.call k) := by
  have hlast : (s.calls ++ [k])[s.calls.length]? = some k := by simp
  have hold : ∀ i, i < s.calls.length → (s.calls ++ [k])[i]? = s.calls[i]? :=
    fun i hi => List.getElem?_append_left hi
  have hlen : (s.calls ++ [k]).length = s.calls.length + 1 := by simp
  have hle := hs.replies_le
  refine ⟨by simp only [State.call, hlen]; omega, hs.settled, ?_, ?_⟩
  · intro i j hi hj
    simp only [State.call] at hi hj ⊢
    rcases Nat.lt_or_ge i s.calls.length with hij | hij
    · rw [hold i hij] at hj
      obtain ⟨hn, ht⟩ := hs.filed i j hi hj
      have hne : j ≠ k := by
        rintro rfl
        apply hfresh
        apply List.mem_iff_getElem?.mpr
        refine ⟨i - s.replies.length, ?_⟩
        rw [List.getElem?_drop, Nat.add_sub_cancel' hi, hj]
      exact ⟨hn, by rw [Function.update_of_ne hne, ht]⟩
    · have hlt := (List.getElem?_eq_some_iff.mp hj).1
      obtain rfl : i = s.calls.length := by omega
      obtain rfl := Option.some.inj (hlast.symm.trans hj)
      exact ⟨hk, Function.update_self ..⟩
  · intro i j hj
    simp only [State.call] at hj ⊢
    rcases eq_or_ne j k with rfl | hjk
    · rw [Function.update_self] at hj
      obtain rfl := Option.some.inj hj
      exact ⟨hle, hlast⟩
    · rw [Function.update_of_ne hjk] at hj
      obtain ⟨hi, hget⟩ := hs.owner i j hj
      exact ⟨hi, by rw [hold i (List.getElem?_eq_some_iff.mp hget).1, hget]⟩

theorem inv_reply {s : State K V} (hs : Inv norm s) {k : K} {v : V}
    (hk : s.calls[s.replies.length]? = some k) :
    Inv norm { s.settle (norm k) v with replies := s.replies ++ [v] } := by
  obtain ⟨hn, ht⟩ := hs.filed _ k (Nat.le_refl _) hk
  have hlt := (List.getElem?_eq_some_iff.mp hk).1
  have hlen : (s.replies ++ [v]).length = s.replies.length + 1 := by simp
  have hne : ∀ i j, s.replies.length + 1 ≤ i → s.calls[i]? = some j → j ≠ k := by
    rintro i j hi hj rfl
    have := (hs.filed i j (by omega) hj).2.symm.trans ht
    have := Option.some.inj this
    omega
  refine ⟨by simp only [hlen, State.settle]; omega, ?_, ?_, ?_⟩
  · intro i
    have hgiven := given_settle s k v i
    rw [hs.settled i, ht] at hgiven
    apply (hn ▸ hgiven).trans
    rcases Nat.lt_trichotomy i s.replies.length with hi | rfl | hi
    · have hold : (s.replies ++ [v])[i]? = s.replies[i]? := List.getElem?_append_left hi
      simp [hold, Nat.ne_of_gt hi]
    · simp
    · have hnew : (s.replies ++ [v])[i]? = none := List.getElem?_eq_none (by omega)
      simp [hnew, Nat.ne_of_lt hi, List.getElem?_eq_none (Nat.le_of_lt hi)]
  · intro i j hi hj
    simp only [hlen, State.settle] at hi hj ⊢
    obtain ⟨hnj, htj⟩ := hs.filed i j (by omega) hj
    rw [hn, Function.update_of_ne (hne i j hi hj)]
    exact ⟨hnj, htj⟩
  · intro i j hj
    simp only [hlen, hn, State.settle] at hj ⊢
    rcases eq_or_ne j k with rfl | hjk
    · rw [Function.update_self] at hj
      cases hj
    · rw [Function.update_of_ne hjk] at hj
      obtain ⟨hi, hget⟩ := hs.owner i j hj
      refine ⟨Nat.lt_of_le_of_ne hi ?_, hget⟩
      rintro rfl
      exact hjk (Option.some.inj (hget.symm.trans hk))

theorem inv_step (s : State K V) (a : Action K V) (t : State K V) (hs : Inv norm s)
    (hgood : Fresh norm s a) (h : step norm s a = some t) : Inv norm t := by
  cases a with
  | call k =>
    cases h
    exact inv_call hs hgood.1 hgood.2
  | reply v =>
    simp only [step] at h
    split at h
    · rename_i k hk
      cases h
      exact inv_reply hs hk
    · cases h

theorem settled_of_fresh {as : List (Action K V)} {t : State K V}
    (hfresh : Meets (step norm) (Fresh norm) init as) (h : run (step norm) init as = some t) :
    t.Settled :=
  (run_invariant inv_step (inv_init norm) hfresh h).settled

/-! ## A call that is not fresh leaves one without its reply -/

variable (norm) in
/-- Continuation `i` has been given nothing and no reply finds it. -/
structure Stuck (i : Nat) (s : State K V) : Prop where
  lt : i < s.calls.length
  given : s.given i = []
  unreachable : ∀ k, s.table k = some i → ∀ k', norm k' ≠ k

/-- A continuation that was there before a call is filed where it was. -/
theorem filed_before_call {i : Nat} {s : State K V} {j k : K} (hi : i < s.calls.length)
    (h : (s.call k).table j = some i) : j ≠ k ∧ s.table j = some i := by
  simp only [State.call] at h
  rcases eq_or_ne j k with rfl | hjk
  · rw [Function.update_self] at h
    have hnew := Option.some.inj h
    omega
  · rw [Function.update_of_ne hjk] at h
    exact ⟨hjk, h⟩

theorem stuck_step {i : Nat} {s t : State K V} {a : Action K V} (hs : Stuck norm i s)
    (h : step norm s a = some t) : Stuck norm i t := by
  cases a with
  | call k =>
    cases h
    have hlt := hs.lt
    refine ⟨by simp only [State.call, List.length_append]; omega, hs.given, ?_⟩
    intro j hj
    exact hs.unreachable j (filed_before_call hlt hj).2
  | reply v =>
    simp only [step] at h
    split at h
    · rename_i k hk
      cases h
      refine ⟨hs.lt, ?_, ?_⟩
      · have hmiss : s.table (norm k) ≠ some i := by
          intro hf
          exact hs.unreachable _ hf k rfl
        have hgiven := given_settle s (norm k) v i
        rw [hs.given, if_neg hmiss] at hgiven
        exact hgiven
      · intro j hj
        simp only [State.settle] at hj
        rcases eq_or_ne j (norm k) with rfl | hjk
        · rw [Function.update_self] at hj
          cases hj
        · rw [Function.update_of_ne hjk] at hj
          exact hs.unreachable j hj
    · cases h

theorem stuck_run {i : Nat} {s t : State K V} {as : List (Action K V)} (hs : Stuck norm i s)
    (h : run (step norm) s as = some t) : Stuck norm i t :=
  run_always (fun _ _ _ => stuck_step) hs h

variable (hidem : ∀ k, norm (norm k) = norm k)
include hidem

/-- Either the new call is filed where nobody looks, or it takes the place of an open one. -/
theorem stuck_of_not_fresh {s : State K V} (hs : Inv norm s) {k : K}
    (hbad : ¬ Fresh (V := V) norm s (.call k)) : ∃ i, Stuck norm i (s.call k) := by
  have hle := hs.replies_le
  have hunsettled : ∀ i, s.replies.length ≤ i → s.given i = [] := by
    intro i hi
    rw [hs.settled i, List.getElem?_eq_none hi]
    rfl
  by_cases hk : norm k = k
  · have hopen : k ∈ s.calls.drop s.replies.length := by
      by_contra h
      exact hbad ⟨hk, h⟩
    obtain ⟨n, hn⟩ := List.mem_iff_getElem?.mp hopen
    rw [List.getElem?_drop] at hn
    have hlt := (List.getElem?_eq_some_iff.mp hn).1
    refine ⟨s.replies.length + n, ?_, hunsettled _ (by omega), ?_⟩
    · simp only [State.call, List.length_append]
      omega
    · intro j hj
      obtain ⟨hjk, hold⟩ := filed_before_call hlt hj
      exact absurd (Option.some.inj ((hs.owner _ j hold).2.symm.trans hn)) hjk
  · refine ⟨s.calls.length, by simp [State.call], hunsettled _ hle, ?_⟩
    intro j hj k' hk'
    simp only [State.call] at hj
    rcases eq_or_ne j k with rfl | hjk
    · apply hk
      rw [← hk', hidem]
    · rw [Function.update_of_ne hjk] at hj
      have := (List.getElem?_eq_some_iff.mp (hs.owner _ j hj).2).1
      omega

theorem stuck_of_not_meets {s t : State K V} {as : List (Action K V)} (hs : Inv norm s)
    (hbad : ¬ Meets (step norm) (Fresh norm) s as) (h : run (step norm) s as = some t) :
    ∃ i, Stuck norm i t := by
  induction as generalizing s with
  | nil => exact absurd trivial hbad
  | cons a as ih =>
    obtain ⟨u, hu, hrun⟩ := run_cons_eq_some.mp h
    by_cases hgood : Fresh norm s a
    · apply ih (inv_step s a u hs hgood hu) _ hrun
      intro hmeets
      apply hbad
      refine ⟨hgood, ?_⟩
      intro w hw
      exact Option.some.inj (hu.symm.trans hw) ▸ hmeets
    · cases a with
      | reply v => exact absurd trivial hgood
      | call k =>
        obtain ⟨i, hi⟩ := stuck_of_not_fresh hidem hs hgood
        cases hu
        exact ⟨i, stuck_run hi hrun⟩

/-- Once every call has been replied to, all are settled only if every call was fresh. -/
theorem fresh_of_settled {as : List (Action K V)} {t : State K V}
    (h : run (step norm) init as = some t) (hall : t.replies.length = t.calls.length)
    (hsettled : t.Settled) : Meets (step norm) (Fresh norm) init as := by
  by_contra hbad
  obtain ⟨i, hi⟩ := stuck_of_not_meets hidem (inv_init norm) hbad h
  have hget := hsettled i
  rw [hi.given, List.getElem?_eq_getElem (hall ▸ hi.lt)] at hget
  cases hget

end Correlation
