import Mathlib.Logic.Function.Basic
import Wasivst.Lib.Transition

/-!
# `ScopedValueCache`

A guard resets the cached value when it is destroyed, unless it has been moved from. `set()` is
said to throw while a value is cached, but replaces the value; a guard that is constructed by a
move is active whatever its source was, and one that is assigned to stays what it was.
-/

set_option autoImplicit false

namespace ScopedValueCache
open Transition
variable {ι α : Type} [DecidableEq ι]

/-! ## The code -/

/-- `cached_value_` refers to the value of the one cache. -/
structure Guard where
  is_active_ : Bool := true

inductive Operation (ι α : Type)
  | set (g : ι) (new_value : α)
  | moveConstruct (g o : ι)
  | moveAssign (g o : ι)
  | destroy (g : ι)

/-- A cache and the guards that exist. -/
structure Cache (ι α : Type) where
  value_ : Option α
  guards : ι → Option Guard

namespace Cache

def init : Cache ι α := ⟨none, fun _ => none⟩

/-- `none` is the null pointer. -/
def get (s : Cache ι α) : Option α := s.value_

def put (s : Cache ι α) (g : ι) (x : Guard) : Cache ι α :=
  { s with guards := Function.update s.guards g (some x) }

def step (s : Cache ι α) : Operation ι α → Option (Cache ι α)
  | .set g new_value =>
    if (s.guards g).isNone then some ({ s with value_ := some new_value }.put g {}) else none
  | .moveConstruct g o =>
    if (s.guards g).isNone then
      (s.guards o).map fun other => (s.put g {}).put o { other with is_active_ := false }
    else none
  | .moveAssign g o =>
    (s.guards g).bind fun _ => (s.guards o).map fun other =>
      s.put o { other with is_active_ := false }
  | .destroy g =>
    (s.guards g).map fun this =>
      { value_ := if this.is_active_ then none else s.value_
        guards := Function.update s.guards g none }

end Cache

/-! ## What the operations mean -/

/-- A move from another guard leaves the active one. -/
def moved (active : Option (ι × α)) (g o : ι) : Option (ι × α) :=
  active.map fun p => if p.1 = o then (g, p.2) else p

/-- The active guard and the value that it was obtained for, which is not replaced while the guard
is alive. -/
def after (active : Option (ι × α)) : Operation ι α → Option (ι × α)
  | .set g new_value => active.elim (some (g, new_value)) some
  | .moveConstruct g o => moved active g o
  | .moveAssign g o => moved active g o
  | .destroy g => active.filter fun p => p.1 ≠ g

/-- The cache has the value of the active guard, which is the only one that would reset it. A call
of `set` that is rejected leaves no guard. -/
structure Scoped (s : Cache ι α × Option (ι × α)) : Prop where
  get : s.1.get = s.2.map Prod.snd
  guards : ∀ g this, s.1.guards g = some this → (this.is_active_ = true ↔ s.2.map Prod.fst = some g)

def init : Cache ι α × Option (ι × α) := (Cache.init, none)

def step (s : Cache ι α × Option (ι × α)) (a : Operation ι α) :
    Option (Cache ι α × Option (ι × α)) := (s.1.step a).map fun t => (t, after s.2 a)

/-- Only an empty cache is set, a guard is constructed from an active one, and an inactive one is
assigned. -/
def Orderly (s : Cache ι α × Option (ι × α)) : Operation ι α → Prop
  | .set _ _ => s.1.get = none
  | .moveConstruct _ o => ∀ other, s.1.guards o = some other → other.is_active_ = true
  | .moveAssign _ o => ∀ other, s.1.guards o = some other → other.is_active_ = false
  | .destroy _ => True

/-- The active guard exists. -/
def Alive (s : Cache ι α × Option (ι × α)) : Prop := ∀ p, s.2 = some p → s.1.guards p.1 ≠ none

/-! ## One step -/

inductive Cache.Stepped (s : Cache ι α) : Operation ι α → Cache ι α → Prop
  | set {g : ι} {x : α} (hfree : s.guards g = none) :
    Stepped s (.set g x) ⟨some x, Function.update s.guards g (some ⟨true⟩)⟩
  | moveConstruct {g o : ι} {other : Guard} (hfree : s.guards g = none)
      (ho : s.guards o = some other) :
    Stepped s (.moveConstruct g o) ((s.put g ⟨true⟩).put o ⟨false⟩)
  | moveAssign {g o : ι} {this other : Guard} (hthis : s.guards g = some this)
      (ho : s.guards o = some other) :
    Stepped s (.moveAssign g o) (s.put o ⟨false⟩)
  | destroy {g : ι} {this : Guard} (hthis : s.guards g = some this) :
    Stepped s (.destroy g)
      ⟨if this.is_active_ then none else s.value_, Function.update s.guards g none⟩

theorem Cache.stepped {s t : Cache ι α} {a : Operation ι α} (h : s.step a = some t) :
    s.Stepped a t := by
  cases a with
  | set g x =>
    simp only [step, Option.ite_none_right_eq_some, Option.some.injEq] at h
    obtain ⟨hfree, rfl⟩ := h
    exact .set (Option.isNone_iff_eq_none.mp hfree)
  | moveConstruct g o =>
    simp only [step, Option.ite_none_right_eq_some, Option.map_eq_some_iff] at h
    obtain ⟨hfree, other, ho, rfl⟩ := h
    exact .moveConstruct (Option.isNone_iff_eq_none.mp hfree) ho
  | moveAssign g o =>
    simp only [step, Option.bind_eq_some_iff, Option.map_eq_some_iff] at h
    obtain ⟨this, hthis, other, ho, rfl⟩ := h
    exact .moveAssign hthis ho
  | destroy g =>
    obtain ⟨this, hthis, rfl⟩ := Option.map_eq_some_iff.mp h
    exact .destroy hthis

theorem step_eq_some {s t : Cache ι α × Option (ι × α)} {a : Operation ι α}
    (h : step s a = some t) : s.1.Stepped a t.1 ∧ t.2 = after s.2 a := by
  obtain ⟨u, hu, rfl⟩ := Option.map_eq_some_iff.mp h
  exact ⟨Cache.stepped hu, rfl⟩

/-! ## The active guard -/

section
variable {active : Option (ι × α)} {g o k : ι}

theorem moved_value : (moved active g o).map Prod.snd = active.map Prod.snd := by
  cases active with
  | none => rfl
  | some p =>
    simp only [moved, Option.map_some]
    split <;> rfl

theorem moved_guard : (moved active g o).map Prod.fst = some k ↔
    active.map Prod.fst = some o ∧ g = k ∨
      active.map Prod.fst ≠ some o ∧ active.map Prod.fst = some k := by
  cases active with
  | none => simp [moved]
  | some p =>
    simp only [moved, Option.map_some, Option.some.injEq]
    by_cases hp : p.1 = o
    · simp [hp]
    · simp [hp]

theorem filter_of_active (h : active.map Prod.fst = some g) :
    (active.filter fun p => p.1 ≠ g) = none := by
  obtain ⟨p, rfl, rfl⟩ := Option.map_eq_some_iff.mp h
  simp [Option.filter]

theorem filter_of_not_active (h : active.map Prod.fst ≠ some g) :
    (active.filter fun p => p.1 ≠ g) = active := by
  cases active with
  | none => rfl
  | some p => exact Option.filter_some_pos (by simpa using h)

end

variable {s t : Cache ι α × Option (ι × α)} {a : Operation ι α}

omit [DecidableEq ι] in
theorem alive_iff : Alive s ↔ ∀ g, s.2.map Prod.fst = some g → s.1.guards g ≠ none := by
  constructor
  · intro h g hg
    obtain ⟨p, hp, rfl⟩ := Option.map_eq_some_iff.mp hg
    exact h p hp
  · intro h p hp
    exact h p.1 (by rw [hp]; rfl)

theorem alive_step (hinv : Alive s) (h : step s a = some t) : Alive t := by
  obtain ⟨hcode, hafter⟩ := step_eq_some h
  rw [alive_iff] at hinv ⊢
  rw [hafter]
  intro k
  have hold := hinv k
  generalize t.1 = u at hcode
  cases hcode with
  | @set g x hfree =>
    simp only [after, Function.update_apply]
    cases hs : s.2 with
    | none => grind
    | some p => grind
  | @moveConstruct g o other hfree ho =>
    simp only [after, moved_guard, Cache.put, Function.update_apply]
    grind
  | @moveAssign g o this other hthis ho =>
    simp only [after, moved_guard, Cache.put, Function.update_apply]
    grind
  | @destroy g this hthis =>
    simp only [after, Function.update_apply]
    by_cases hactive : s.2.map Prod.fst = some g
    · rw [filter_of_active hactive]
      grind
    · rw [filter_of_not_active hactive]
      grind

omit [DecidableEq ι] in
theorem Scoped.get_eq_none_iff (h : Scoped s) : s.1.get = none ↔ s.2 = none := by
  rw [h.get, Option.map_eq_none_iff]

theorem get_after (hsafe : Scoped s) (hgood : Orderly s a) (h : step s a = some t) :
    t.1.get = t.2.map Prod.snd := by
  have hget := hsafe.get
  obtain ⟨hcode, hafter⟩ := step_eq_some h
  rw [hafter]
  generalize t.1 = u at hcode
  cases hcode with
  | @set g x hfree =>
    rw [hsafe.get_eq_none_iff.mp hgood]
    rfl
  | moveConstruct => exact hget.trans moved_value.symm
  | moveAssign => exact hget.trans moved_value.symm
  | @destroy g this hthis =>
    have hactive := hsafe.guards g this hthis
    simp only [Cache.get, after]
    by_cases hflag : this.is_active_ = true
    · rw [if_pos hflag, filter_of_active (hactive.mp hflag)]
      rfl
    · rw [if_neg hflag, filter_of_not_active (fun hg => hflag (hactive.mpr hg))]
      exact hget

theorem guards_after (hsafe : Scoped s) (hgood : Orderly s a) (h : step s a = some t) (k : ι)
    (this : Guard) (hk : t.1.guards k = some this) :
    this.is_active_ = true ↔ t.2.map Prod.fst = some k := by
  have hold := hsafe.guards k
  obtain ⟨hcode, hafter⟩ := step_eq_some h
  rw [hafter]
  generalize t.1 = u at hcode hk
  cases hcode with
  | @set g x hfree =>
    rw [hsafe.get_eq_none_iff.mp hgood] at hold ⊢
    simp only [Function.update_apply] at hk
    simp only [after, Option.elim_none, Option.map_some, Option.some.injEq]
    grind
  | @moveConstruct g o other hfree ho =>
    have hactive := (hsafe.guards o other ho).mp (hgood other ho)
    simp only [Cache.put, Function.update_apply] at hk
    simp only [after, moved_guard]
    grind
  | @moveAssign g o this' other hthis ho =>
    have hinactive : s.2.map Prod.fst ≠ some o := by
      intro ho'
      have htrue := (hsafe.guards o other ho).mpr ho'
      rw [hgood other ho] at htrue
      cases htrue
    simp only [Cache.put, Function.update_apply] at hk
    simp only [after, moved_guard]
    grind
  | @destroy g this' hthis =>
    simp only [Function.update_apply] at hk
    simp only [after]
    by_cases hactive : s.2.map Prod.fst = some g
    · rw [filter_of_active hactive]
      grind
    · rw [filter_of_not_active hactive]
      grind

theorem scoped_step (hsafe : Scoped s) (hgood : Orderly s a) (h : step s a = some t) :
    Scoped t where
  get := get_after hsafe hgood h
  guards := guards_after hsafe hgood h

/-- An operation that is not orderly leaves a guard that is active and should not be, or the other
way round. -/
theorem not_scoped_step (hinv : Alive s) (hsafe : Scoped s) (hbad : ¬ Orderly s a)
    (h : step s a = some t) : ¬ Scoped t := by
  intro hscoped
  rw [alive_iff] at hinv
  obtain ⟨hcode, hafter⟩ := step_eq_some h
  obtain ⟨u, active⟩ := t
  obtain rfl : active = after s.2 a := hafter
  change s.1.Stepped a u at hcode
  cases hcode with
  | @set g x hfree =>
    have hactive := (hscoped.guards g ⟨true⟩ (Function.update_self _ _ _)).mp rfl
    cases hs : s.2 with
    | none => exact hbad (hsafe.get_eq_none_iff.mpr hs)
    | some p =>
      rw [hs] at hactive
      exact hinv g (by rw [hs]; exact hactive) hfree
  | @moveConstruct g o other hfree ho =>
    have hgo : g ≠ o := ne_of_apply_ne s.1.guards (by simp [hfree, ho])
    have hnew := (hscoped.guards g ⟨true⟩
      ((Function.update_of_ne hgo _ _).trans (Function.update_self _ _ _))).mp rfl
    rcases moved_guard.mp hnew with ⟨ho', -⟩ | ⟨-, hg⟩
    · apply hbad
      intro x hx
      exact (hsafe.guards o x hx).mpr ho'
    · exact hinv g hg hfree
  | @moveAssign g o this other hthis ho =>
    apply hbad
    intro x hx
    rw [Bool.eq_false_iff]
    intro htrue
    have hactive := (hsafe.guards o x hx).mp htrue
    have hg : (moved s.2 g o).map Prod.fst = some g := moved_guard.mpr (Or.inl ⟨hactive, rfl⟩)
    by_cases hgo : g = o
    · rw [hgo] at hg
      cases (hscoped.guards o ⟨false⟩ (Function.update_self _ _ _)).mpr (hgo ▸ hg)
    · have hthis' := (hscoped.guards g this ((Function.update_of_ne hgo _ _).trans hthis)).mpr hg
      have hboth := (hsafe.guards g this hthis).mp hthis'
      exact hgo (Option.some.inj (hboth.symm.trans hactive))
  | destroy => exact hbad trivial

omit [DecidableEq ι] in
theorem alive_init : Alive (init : Cache ι α × Option (ι × α)) := fun _ hp => by cases hp

omit [DecidableEq ι] in
theorem scoped_init : Scoped (init : Cache ι α × Option (ι × α)) where
  get := rfl
  guards := by
    intro g this hg
    cases hg

/-- The guards are scoped in every state of the run exactly if the run keeps off what the class
does not do as it is documented. -/
theorem guards_scoped_iff {as : List (Operation ι α)} {s : Cache ι α × Option (ι × α)}
    (h : run step init as = some s) :
    Throughout step Scoped init as ↔ Meets step Orderly init as := by
  exact throughout_iff_meets (fun _ _ _ => alive_step) (fun _ _ _ _ => scoped_step)
    (fun _ _ hsafe => hsafe) (fun _ _ _ => not_scoped_step) alive_init scoped_init h

/-- A guard is handed on, and another value is cached after it. -/
def handedOn : List (Operation Nat Nat) :=
  [.set 0 7, .moveConstruct 1 0, .moveAssign 1 0, .destroy 0, .destroy 1, .set 0 8, .destroy 0]

theorem handedOn_scoped : Throughout step Scoped init handedOn := by
  refine (guards_scoped_iff rfl).mpr ?_
  simp [handedOn, Meets, Orderly, step, init, Cache.init, Cache.step, Cache.put, Cache.get]

/-- A second value is cached while the first guard is active. -/
def setTwice : List (Operation Nat Nat) := [.set 0 7, .set 1 8]

/-- The value of the active guard is replaced. -/
theorem setTwice_replaces :
    ∃ s, run step init setTwice = some s ∧ s.2 = some (0, 7) ∧ s.1.get = some 8 :=
  ⟨_, rfl, rfl, rfl⟩

end ScopedValueCache
