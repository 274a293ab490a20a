import Mathlib.Logic.Relation
import Mathlib.Data.List.Basic

/-!
# Runs of transition systems

Two kinds of program are covered: a `while (true)` loop whose body ends it by an exception,
and a system whose parties take labelled steps in any order. For the second, `step s a` is
`none` when action `a` is not enabled in `s`. An invariant is proved on one step and carried
to whole runs here, once.
-/

set_option autoImplicit false

namespace Transition

/-! ## Loops -/

section Loop
variable {σ ε : Type} (body : σ → Except ε σ)

/-- At most `n` iterations; the state returned is the one at the head of the last iteration. -/
def loop : Nat → σ → σ × Option ε
  | 0, s => (s, none)
  | n + 1, s =>
    match body s with
    | .ok s' => loop n s'
    | .error e => (s, some e)

/-- The loop head is reached in state `t` when the loop is entered in state `s`. -/
def Iterates : σ → σ → Prop := Relation.ReflTransGen fun s t => body s = .ok t

variable {body}

theorem Iterates.refl (s : σ) : Iterates body s s := Relation.ReflTransGen.refl

theorem Iterates.head {s t u : σ} (h : body s = .ok t) (htu : Iterates body t u) :
    Iterates body s u := Relation.ReflTransGen.head h htu

theorem Iterates.trans {s t u : σ} (hst : Iterates body s t) (htu : Iterates body t u) :
    Iterates body s u := Relation.ReflTransGen.trans hst htu

theorem Iterates.comparable {s t u : σ} (hst : Iterates body s t) (hsu : Iterates body s u) :
    Iterates body t u ∨ Iterates body u t :=
  Relation.ReflTransGen.total_of_right_unique
    (fun _ _ _ h h' => Except.ok.inj (h.symm.trans h')) hst hsu

variable {μ : σ → Nat} (dec : ∀ s t, body s = .ok t → μ t < μ s)
include dec

/-- Under a variant the bound on the iterations is not felt. -/
theorem loop_of_iterates {s t : σ} {e : ε} (h : Iterates body s t) (he : body t = .error e)
    (n : Nat) (hn : μ s < n) : loop body n s = (t, some e) := by
  induction h using Relation.ReflTransGen.head_induction_on generalizing n with
  | refl =>
    obtain ⟨m, rfl⟩ : ∃ m, n = m + 1 := ⟨n - 1, by omega⟩
    simp [loop, he]
  | @head s u hsu _ ih =>
    obtain ⟨m, rfl⟩ : ∃ m, n = m + 1 := ⟨n - 1, by omega⟩
    have hlt := dec s u hsu
    unfold loop
    rw [hsu]
    exact ih m (by omega)

/-- Under a variant the loop ends, and it ends by the exception of its last iteration. -/
theorem loop_ends (s : σ) (n : Nat) (hn : μ s < n) :
    ∃ t e, Iterates body s t ∧ body t = .error e ∧ loop body n s = (t, some e) := by
  induction n generalizing s with
  | zero => omega
  | succ n ih =>
    cases hb : body s with
    | error e => exact ⟨s, e, .refl s, hb, by simp [loop, hb]⟩
    | ok s' =>
      have hlt := dec s s' hb
      obtain ⟨t, e, hst, he, hl⟩ := ih s' (by omega)
      exact ⟨t, e, hst.head hb, he, by simpa [loop, hb] using hl⟩

end Loop

/-! ## Labelled steps -/

section Labelled
variable {σ α : Type} (step : σ → α → Option σ)

def run : σ → List α → Option σ
  | s, [] => some s
  | s, a :: as => (step s a).bind fun t => run t as

variable {step}

theorem run_append {s : σ} {as bs : List α} :
    run step s (as ++ bs) = (run step s as).bind fun t => run step t bs := by
  induction as generalizing s with
  | nil => rfl
  | cons a as ih =>
    cases h : step s a with
    | none => simp [run, h]
    | some t => simp [run, h, ih]

theorem run_cons_eq_some {s u : σ} {a : α} {as : List α} :
    run step s (a :: as) = some u ↔ ∃ t, step s a = some t ∧ run step t as = some u := by
  simp [run, Option.bind_eq_some_iff]

theorem run_append_eq_some {s u : σ} {as bs : List α} :
    run step s (as ++ bs) = some u ↔
      ∃ t, run step s as = some t ∧ run step t bs = some u := by
  rw [run_append, Option.bind_eq_some_iff]

theorem run_of_total (total : ∀ s a, ∃ t, step s a = some t) (s : σ) (as : List α) :
    ∃ t, run step s as = some t := by
  induction as generalizing s with
  | nil => exact ⟨s, rfl⟩
  | cons a as ih =>
    obtain ⟨u, hu⟩ := total s a
    obtain ⟨t, ht⟩ := ih u
    exact ⟨t, run_cons_eq_some.mpr ⟨u, hu, ht⟩⟩

variable (step) in
/-- Every step of the run is taken in a state in which `Good` allows its label. -/
def Meets (Good : σ → α → Prop) : σ → List α → Prop
  | _, [] => True
  | s, a :: as => Good s a ∧ ∀ t, step s a = some t → Meets Good t as

instance Meets.decidable {Good : σ → α → Prop} [∀ s a, Decidable (Good s a)] :
    ∀ s as, Decidable (Meets step Good s as)
  | _, [] => inferInstanceAs (Decidable True)
  | s, a :: as =>
    match h : step s a with
    | none => decidable_of_iff (Good s a) (by simp [Meets, h])
    | some t =>
      have : Decidable (Meets step Good t as) := Meets.decidable t as
      decidable_of_iff (Good s a ∧ Meets step Good t as) (by simp [Meets, h])

theorem meets_of_forall {Good : σ → α → Prop} {as : List α} (h : ∀ a ∈ as, ∀ s, Good s a) (s : σ) :
    Meets step Good s as := by
  induction as generalizing s with
  | nil => trivial
  | cons a as ih =>
    refine ⟨h a List.mem_cons_self s, ?_⟩
    intro t _
    apply ih
    intro b hb
    exact h b (List.mem_cons_of_mem a hb)

theorem meets_append {Good : σ → α → Prop} {s : σ} {as bs : List α} (has : Meets step Good s as)
    (hbs : ∀ t, run step s as = some t → Meets step Good t bs) : Meets step Good s (as ++ bs) := by
  induction as generalizing s with
  | nil => exact hbs s rfl
  | cons a as ih =>
    refine ⟨has.1, ?_⟩
    intro t ht
    apply ih (has.2 t ht)
    intro u hu
    exact hbs u (run_cons_eq_some.mpr ⟨t, ht, hu⟩)

/-- A run whose steps meet `Good` keeps what every such step keeps. -/
theorem run_invariant {Good : σ → α → Prop} {Inv : σ → Prop}
    (keep : ∀ s a t, Inv s → Good s a → step s a = some t → Inv t)
    {s t : σ} {as : List α} (hs : Inv s) (hg : Meets step Good s as)
    (h : run step s as = some t) : Inv t := by
  induction as generalizing s with
  | nil => exact Option.some.inj h ▸ hs
  | cons a as ih =>
    obtain ⟨u, hu, hrun⟩ := run_cons_eq_some.mp h
    exact ih (keep s a u hs hg.1 hu) (hg.2 u hu) hrun

theorem run_always {Inv : σ → Prop} (keep : ∀ s a t, Inv s → step s a = some t → Inv t) {s t : σ}
    {as : List α} (hs : Inv s) (h : run step s as = some t) : Inv t := by
  have hgood : Meets step (fun _ _ => True) s as := meets_of_forall (fun _ _ _ => trivial) s
  exact run_invariant (fun s a t hi _ => keep s a t hi) hs hgood h

variable (step) in
/-- `P` holds in every state of the run. -/
def Throughout (P : σ → Prop) : σ → List α → Prop
  | s, [] => P s
  | s, a :: as => P s ∧ ∀ t, step s a = some t → Throughout P t as

theorem Throughout.head {P : σ → Prop} {s : σ} {as : List α} (h : Throughout step P s as) : P s := by
  cases as with
  | nil => exact h
  | cons a as => exact h.1

theorem Throughout.last {P : σ → Prop} {s t : σ} {as : List α} (hp : Throughout step P s as)
    (h : run step s as = some t) : P t := by
  induction as generalizing s with
  | nil => exact Option.some.inj h ▸ hp
  | cons a as ih =>
    obtain ⟨u, hu, hrun⟩ := run_cons_eq_some.mp h
    exact ih (hp.2 u hu) hrun

/-- A step that is not good breaks `P` at once, good steps keep what implies it: the runs with `P`
in every state are those whose steps are good. -/
theorem throughout_iff_meets {Good : σ → α → Prop} {Inv Safe P : σ → Prop}
    (keep : ∀ s a t, Inv s → step s a = some t → Inv t)
    (good : ∀ s a t, Inv s → Safe s → Good s a → step s a = some t → Safe t)
    (safe : ∀ s, Inv s → Safe s → P s)
    (bad : ∀ s a t, Inv s → Safe s → ¬ Good s a → step s a = some t → ¬ P t)
    {s t : σ} {as : List α} (hs : Inv s) (hsafe : Safe s) (h : run step s as = some t) :
    Throughout step P s as ↔ Meets step Good s as := by
  induction as generalizing s with
  | nil => exact iff_of_true (safe s hs hsafe) trivial
  | cons a as ih =>
    obtain ⟨u, hu, hrun⟩ := run_cons_eq_some.mp h
    have hinv := keep s a u hs hu
    constructor
    · intro hp
      have hgood : Good s a := by
        by_contra hbad
        exact bad s a u hs hsafe hbad hu (hp.2 u hu).head
      have hiff := ih hinv (good s a u hs hsafe hgood hu) hrun
      refine ⟨hgood, ?_⟩
      intro v hv
      obtain rfl := Option.some.inj (hu.symm.trans hv)
      exact hiff.mp (hp.2 u hu)
    · intro hm
      have hiff := ih hinv (good s a u hs hsafe hm.1 hu) hrun
      refine ⟨safe s hs hsafe, ?_⟩
      intro v hv
      obtain rfl := Option.some.inj (hu.symm.trans hv)
      exact hiff.mpr (hm.2 u hu)

theorem run_length_le {μ : σ → Nat} (dec : ∀ s a t, step s a = some t → μ t < μ s) {s t : σ}
    {as : List α} (h : run step s as = some t) : as.length + μ t ≤ μ s := by
  induction as generalizing s with
  | nil => exact Option.some.inj h ▸ Nat.le_of_eq (Nat.zero_add _)
  | cons a as ih =>
    obtain ⟨u, hu, hrun⟩ := run_cons_eq_some.mp h
    have hstep := dec s a u hu
    have hrest := ih hrun
    rw [List.length_cons]
    omega

/-- A step of `step` is matched by one step of `step'` between the images of its states, good if
and only if it is, or it is good and moves the image nowhere. -/
def Matches {τ γ : Type} (step : σ → α → Option σ) (step' : τ → γ → Option τ)
    (Good : σ → α → Prop) (Good' : τ → γ → Prop) (f : σ → τ) (Inv : σ → Prop) : Prop :=
  ∀ s a t, Inv s → step s a = some t →
    (∃ b, step' (f s) b = some (f t) ∧ (Good s a ↔ Good' (f s) b)) ∨ (f t = f s ∧ Good s a)

/-- A run is carried over label by label, and meets its condition if and only if its image does. -/
theorem Matches.run {τ γ : Type} {step' : τ → γ → Option τ} {Good : σ → α → Prop}
    {Good' : τ → γ → Prop} {f : σ → τ} {Inv : σ → Prop}
    (sim : Matches step step' Good Good' f Inv)
    (keep : ∀ s a t, Inv s → step s a = some t → Inv t) {s t : σ} {as : List α} (hs : Inv s)
    (h : Transition.run step s as = some t) :
    ∃ bs, Transition.run step' (f s) bs = some (f t) ∧
      (Meets step Good s as ↔ Meets step' Good' (f s) bs) := by
  induction as generalizing s with
  | nil =>
    obtain rfl := Option.some.inj h
    exact ⟨[], rfl, Iff.rfl⟩
  | cons a as ih =>
    obtain ⟨u, hu, hrun⟩ := run_cons_eq_some.mp h
    obtain ⟨bs, hbs, hmeets⟩ := ih (keep s a u hs hu) hrun
    have hstep : Meets step Good s (a :: as) ↔ Good s a ∧ Meets step Good u as := by
      simp [Meets, hu]
    rcases sim s a u hs hu with ⟨b, hb, hgood⟩ | ⟨hstay, hgood⟩
    · refine ⟨b :: bs, run_cons_eq_some.mpr ⟨f u, hb, hbs⟩, ?_⟩
      rw [hstep, hgood, hmeets]
      simp [Meets, hb]
    · rw [hstay] at hbs hmeets
      exact ⟨bs, hbs, hstep.trans ((and_iff_right hgood).trans hmeets)⟩

/-- A step of `step` is matched by a run of `step'` between related states. -/
def Simulates {τ γ : Type} (step : σ → α → Option σ) (step' : τ → γ → Option τ)
    (R : σ → τ → Prop) : Prop :=
  ∀ s a t u, R s u → step s a = some t → ∃ bs v, run step' u bs = some v ∧ R t v

end Labelled
end Transition
