import Wasivst.Lib.Holding
import Wasivst.Lib.Transition

/-!
# `Process::Handle`

A handle is the owner of a child process until the process is detached, moved to another handle or
terminated. `detached_` says both that the user has detached the process and that the handle has
been moved from. The move assignment sets it in the source before it copies it.
-/

set_option autoImplicit false

namespace Process
open Transition Holding
variable {ι π : Type} [DecidableEq ι] [DecidableEq π]

/-! ## The code -/

structure Handle (π : Type) where
  detached_ : Bool
  pid_ : π

namespace Handle

def ofPid (pid : π) : Handle π := ⟨false, pid⟩

/-- The constructor: the new handle, and what it leaves of `o`. -/
def moved (o : Handle π) : Handle π × Handle π :=
  (⟨o.detached_, o.pid_⟩, { o with detached_ := true })

/-- The assignment, statement by statement; it has nothing of the handle that is overwritten. -/
def assigned (this o : Handle π) : Handle π × Handle π :=
  let o := { o with detached_ := true }
  let this := { this with detached_ := o.detached_ }
  let this := { this with pid_ := o.pid_ }
  (this, o)

def detach (this : Handle π) : Handle π := { this with detached_ := true }

/-- The process that the destructor terminates. -/
def terminates (this : Handle π) : Option π := if this.detached_ then none else some this.pid_

end Handle

inductive Operation (ι π : Type)
  | spawn (h : ι) (pid : π)
  | moveConstruct (h o : ι)
  | moveAssign (h o : ι)
  | detach (h : ι)
  | destroy (h : ι)

/-- The handles that exist, the processes that were started and those that were terminated. -/
structure Program (ι π : Type) where
  handles : ι → Option (Handle π)
  spawned : List π
  terminated : List π

namespace Program

def init : Program ι π := ⟨fun _ => none, [], []⟩

def put (s : Program ι π) (h : ι) (x : Handle π) : Program ι π :=
  { s with handles := Function.update s.handles h (some x) }

/-- A handle is constructed where there is none. The system gives a process a number that it has
given to no other. -/
def step (s : Program ι π) : Operation ι π → Option (Program ι π)
  | .spawn h pid =>
    if (s.handles h).isNone ∧ pid ∉ s.spawned then
      some { s.put h (Handle.ofPid pid) with spawned := pid :: s.spawned }
    else none
  | .moveConstruct h o =>
    if (s.handles h).isNone then
      (s.handles o).map fun other => (s.put o other.moved.2).put h other.moved.1
    else none
  | .moveAssign h o =>
    (s.handles h).bind fun this => (s.handles o).map fun other =>
      (s.put o (this.assigned other).2).put h (this.assigned other).1
  | .detach h => (s.handles h).map fun this => s.put h this.detach
  | .destroy h =>
    (s.handles h).map fun this =>
      { s with
        handles := Function.update s.handles h none
        terminated := s.terminated ++ this.terminates.toList }

end Program

/-! ## Who owns which process -/

/-- What the operations mean: the process that each handle owns, and the processes that were
detached. -/
structure Owners (ι π : Type) where
  owner : ι → Option π
  detached : List π

namespace Owners

def init : Owners ι π := ⟨fun _ => none, []⟩

def after (s : Owners ι π) : Operation ι π → Owners ι π
  | .spawn h pid => { s with owner := Function.update s.owner h (some pid) }
  | .moveConstruct h o => { s with owner := move s.owner h o }
  | .moveAssign h o => { s with owner := move s.owner h o }
  | .detach h => { s with detached := (s.owner h).toList ++ s.detached }
  | .destroy h => { s with owner := Function.update s.owner h none }

/-- The process that is to be terminated when the handle is destroyed or overwritten. -/
def due (s : Owners ι π) (h : ι) : Option π := (s.owner h).filter fun p => p ∉ s.detached

/-- The process that loses its owner for good. -/
def lost (s : Owners ι π) : Operation ι π → Option π
  | .moveAssign h o => if h = o then none else s.due h
  | .destroy h => s.due h
  | _ => none

end Owners

/-- A started process that was never detached and has no owner any more. -/
def Orphan (s : Program ι π × Owners ι π) (p : π) : Prop :=
  p ∈ s.1.spawned ∧ p ∉ s.2.detached ∧ ¬ Held s.2.owner p

/-- A handle would terminate the process that it owns unless that was detached, and nothing else;
the processes without an owner were terminated once, no others were. -/
structure Terminates (s : Program ι π × Owners ι π) : Prop where
  handles : ∀ h this, s.1.handles h = some this → this.terminates = s.2.due h
  once : ∀ p, Orphan s p → s.1.terminated.count p = 1
  never : ∀ p, ¬ Orphan s p → s.1.terminated.count p = 0

def init : Program ι π × Owners ι π := (Program.init, Owners.init)

def step (s : Program ι π × Owners ι π) (a : Operation ι π) :
    Option (Program ι π × Owners ι π) := (s.1.step a).map fun t => (t, s.2.after a)

/-- What the owners are, whatever the handles say. -/
structure Owned (s : Program ι π × Owners ι π) : Prop where
  alive : ∀ h, s.1.handles h = none → s.2.owner h = none
  spawned : ∀ p, Held s.2.owner p ∨ p ∈ s.2.detached → p ∈ s.1.spawned
  exclusive : Exclusive s.2.owner

/-- Neither handle of a move assignment would terminate anything. -/
def AssignsDetached (s : Program ι π × Owners ι π) : Operation ι π → Prop
  | .moveAssign h o => ∀ x, s.1.handles h = some x ∨ s.1.handles o = some x → x.detached_ = true
  | _ => True

/-! ## One step -/

inductive Program.Stepped (s : Program ι π) : Operation ι π → Program ι π → Prop
  | spawn {h : ι} {pid : π} (hfree : s.handles h = none) (hnew : pid ∉ s.spawned) :
    Stepped s (.spawn h pid)
      { s with
        handles := Function.update s.handles h (some ⟨false, pid⟩)
        spawned := pid :: s.spawned }
  | moveConstruct {h o : ι} {other : Handle π} (hfree : s.handles h = none)
      (ho : s.handles o = some other) :
    Stepped s (.moveConstruct h o) ((s.put o ⟨true, other.pid_⟩).put h other)
  | moveAssign {h o : ι} {this other : Handle π} (hthis : s.handles h = some this)
      (ho : s.handles o = some other) :
    Stepped s (.moveAssign h o) ((s.put o ⟨true, other.pid_⟩).put h ⟨true, other.pid_⟩)
  | detach {h : ι} {this : Handle π} (hthis : s.handles h = some this) :
    Stepped s (.detach h) (s.put h ⟨true, this.pid_⟩)
  | destroy {h : ι} {this : Handle π} (hthis : s.handles h = some this) :
    Stepped s (.destroy h)
      { s with
        handles := Function.update s.handles h none
        terminated := s.terminated ++ this.terminates.toList }

theorem Program.stepped {s t : Program ι π} {a : Operation ι π} (h : s.step a = some t) :
    s.Stepped a t := by
  cases a with
  | spawn i pid =>
    simp only [step, Option.ite_none_right_eq_some, Option.some.injEq] at h
    obtain ⟨⟨hfree, hnew⟩, rfl⟩ := h
    exact .spawn (Option.isNone_iff_eq_none.mp hfree) hnew
  | moveConstruct i o =>
    simp only [step, Option.ite_none_right_eq_some, Option.map_eq_some_iff] at h
    obtain ⟨hfree, other, ho, rfl⟩ := h
    exact .moveConstruct (Option.isNone_iff_eq_none.mp hfree) ho
  | moveAssign i o =>
    simp only [step, Option.bind_eq_some_iff, Option.map_eq_some_iff] at h
    obtain ⟨this, hthis, other, ho, rfl⟩ := h
    exact .moveAssign hthis ho
  | detach i =>
    obtain ⟨this, hthis, rfl⟩ := Option.map_eq_some_iff.mp h
    exact .detach hthis
  | destroy i =>
    obtain ⟨this, hthis, rfl⟩ := Option.map_eq_some_iff.mp h
    exact .destroy hthis

theorem step_eq_some {s t : Program ι π × Owners ι π} {a : Operation ι π}
    (h : step s a = some t) : s.1.Stepped a t.1 ∧ t.2 = s.2.after a := by
  obtain ⟨u, hu, rfl⟩ := Option.map_eq_some_iff.mp h
  exact ⟨Program.stepped hu, rfl⟩

namespace Owners

omit [DecidableEq ι] in
theorem due_eq_some_iff {s : Owners ι π} {h : ι} {p : π} :
    s.due h = some p ↔ s.owner h = some p ∧ p ∉ s.detached := by
  simp [due, Option.filter_eq_some_iff]

omit [DecidableEq ι] in
theorem due_of_none {s : Owners ι π} {h : ι} (hno : s.owner h = none) : s.due h = none := by
  rw [due, hno]
  rfl

omit [DecidableEq ι] in
theorem due_congr {s t : Owners ι π} {h k : ι} (howner : t.owner k = s.owner h)
    (hdetached : t.detached = s.detached) : t.due k = s.due h := by
  rw [due, due, howner, hdetached]

theorem due_spawn {s : Owners ι π} {h : ι} {pid : π} (hnot : pid ∉ s.detached) :
    (s.after (.spawn h pid)).due h = some pid :=
  due_eq_some_iff.mpr ⟨Function.update_self _ _ _, hnot⟩

theorem due_moveConstruct {s : Owners ι π} {h o : ι} :
    (s.after (.moveConstruct h o)).due h = s.due o := due_congr move_self rfl

theorem due_moveAssign {s : Owners ι π} {h o : ι} :
    (s.after (.moveAssign h o)).due h = s.due o := due_congr move_self rfl

theorem due_detach_self {s : Owners ι π} {h : ι} : (s.after (.detach h)).due h = none := by
  rw [Option.eq_none_iff_forall_ne_some]
  intro p hp
  obtain ⟨howner, hnot⟩ := due_eq_some_iff.mp hp
  apply hnot
  apply List.mem_append_left
  rw [Option.mem_toList]
  exact howner

theorem due_detach_of_ne {s : Owners ι π} (hexclusive : Exclusive s.owner) {h k : ι}
    (hne : k ≠ h) : (s.after (.detach h)).due k = s.due k := by
  apply Option.ext
  intro p
  rw [due_eq_some_iff, due_eq_some_iff]
  apply and_congr_right
  intro howner
  have hnot : s.owner h ≠ some p := fun hh => hne (hexclusive howner hh)
  simp [after, hnot]

theorem lost_held {s : Owners ι π} {a : Operation ι π} {p : π} (h : s.lost a = some p) :
    Held s.owner p := by
  have hdue : ∀ i, s.due i = some p → Held s.owner p := fun i hi => ⟨i, (due_eq_some_iff.mp hi).1⟩
  cases a with
  | moveAssign i o =>
    change (if i = o then none else s.due i) = some p at h
    split at h
    · cases h
    · exact hdue i h
  | destroy i => exact hdue i h
  | _ => cases h

end Owners

open Owners
variable {s t : Program ι π × Owners ι π} {a : Operation ι π}

/-- The processes that a step leaves without an owner. -/
theorem orphan_after (hinv : Owned s) (h : step s a = some t) (p : π) :
    Orphan t p ↔ Orphan s p ∨ s.2.lost a = some p := by
  obtain ⟨hcode, howners⟩ := step_eq_some h
  unfold Orphan
  rw [howners]
  have hspawned := hinv.spawned p
  have hheld : ∀ i, s.2.owner i = some p → Held s.2.owner p := fun i hi => ⟨i, hi⟩
  generalize t.1 = u at hcode
  cases hcode with
  | @spawn i pid hfree hnew =>
    simp only [after, lost, held_put (hinv.alive i hfree), List.mem_cons]
    grind
  | @moveConstruct i o other hfree ho =>
    have hnone := hinv.alive i hfree
    simp only [after, lost, held_move hinv.exclusive, hnone]
    grind [Program.put]
  | @moveAssign i o this other hthis ho =>
    simp only [after, lost, held_move hinv.exclusive]
    by_cases hio : i = o
    · simp [hio, Program.put]
    · have hheld : s.2.owner i = some p → Held s.2.owner p := fun hi => ⟨i, hi⟩
      simp only [if_neg hio, due_eq_some_iff]
      grind [Program.put]
  | @detach i this hthis =>
    simp only [after, lost, List.mem_append, Option.mem_toList]
    grind [Program.put]
  | @destroy i this hthis =>
    simp only [after, lost, held_drop hinv.exclusive, due_eq_some_iff]
    grind

omit [DecidableEq ι] [DecidableEq π] in
theorem owned_init : Owned (init : Program ι π × Owners ι π) where
  alive := fun _ _ => rfl
  spawned := by
    intro p hp
    rcases hp with ⟨i, hi⟩ | hp
    · cases hi
    · cases hp
  exclusive := Exclusive.empty

/-- A handle that does not exist after the step had no process, or has lost it. -/
theorem alive_after (hinv : Owned s) (h : step s a = some t) (k : ι)
    (hk : t.1.handles k = none) : t.2.owner k = none := by
  obtain ⟨hcode, howners⟩ := step_eq_some h
  rw [howners]
  have hold := hinv.alive k
  generalize t.1 = u at hcode hk
  cases hcode with
  | @spawn i pid hfree hnew =>
    simp only [Function.update_apply] at hk
    simp only [after, Function.update_apply]
    grind
  | @moveConstruct i o other hfree ho =>
    simp only [Program.put, Function.update_apply] at hk
    simp only [after, move, Function.update_apply]
    grind
  | @moveAssign i o this other hthis ho =>
    simp only [Program.put, Function.update_apply] at hk
    simp only [after, move, Function.update_apply]
    grind
  | @detach i this hthis =>
    simp only [Program.put, Function.update_apply] at hk
    simp only [after]
    grind
  | @destroy i this hthis =>
    simp only [Function.update_apply] at hk
    simp only [after, Function.update_apply]
    grind

theorem owned_step (hinv : Owned s) (h : step s a = some t) : Owned t := by
  refine ⟨alive_after hinv h, ?_, ?_⟩
  all_goals
    obtain ⟨hcode, howners⟩ := step_eq_some h
    rw [howners]
    generalize t.1 = u at hcode
  · intro p
    have hold := hinv.spawned p
    cases hcode with
    | @spawn i pid hfree hnew =>
      simp only [after, held_put (hinv.alive i hfree), List.mem_cons]
      grind
    | @moveConstruct i o other hfree ho =>
      simp only [after, held_move hinv.exclusive]
      grind [Program.put]
    | @moveAssign i o this other hthis ho =>
      simp only [after, held_move hinv.exclusive]
      grind [Program.put]
    | @detach i this hthis =>
      have hheld : s.2.owner i = some p → Held s.2.owner p := fun hi => ⟨i, hi⟩
      simp only [after, List.mem_append, Option.mem_toList]
      grind [Program.put]
    | @destroy i this hthis =>
      simp only [after, held_drop hinv.exclusive]
      grind
  · cases hcode with
    | @spawn i pid hfree hnew =>
      have hnot : ¬ Held s.2.owner pid := fun hheld => hnew (hinv.spawned pid (Or.inl hheld))
      exact hinv.exclusive.put hnot
    | moveConstruct => exact hinv.exclusive.move
    | moveAssign => exact hinv.exclusive.move
    | detach => exact hinv.exclusive
    | destroy => exact hinv.exclusive.drop

/-! ## What the code terminates -/

/-- A step that terminates precisely the process that loses its owner keeps the counts right. -/
theorem counts_after (hinv : Owned s) (hsafe : Terminates s) (h : step s a = some t)
    (hended : t.1.terminated = s.1.terminated ++ (s.2.lost a).toList) (p : π) :
    (Orphan t p → t.1.terminated.count p = 1) ∧ (¬ Orphan t p → t.1.terminated.count p = 0) := by
  rw [orphan_after hinv h, hended, List.count_append]
  by_cases hlost : s.2.lost a = some p
  · have hnot : ¬ Orphan s p := fun horphan => horphan.2.2 (lost_held hlost)
    have hcount := hsafe.never p hnot
    constructor
    · intro _
      rw [hcount, hlost, Option.toList_some, List.count_singleton_self]
    · intro hno
      exact absurd (Or.inr hlost) hno
  · have hcount : (s.2.lost a).toList.count p = 0 := by
      rw [List.count_eq_zero, Option.mem_toList]
      exact hlost
    rw [hcount, Nat.add_zero]
    constructor
    · intro hafter
      exact hsafe.once p (hafter.resolve_right hlost)
    · intro hafter
      exact hsafe.never p (fun horphan => hafter (Or.inl horphan))

theorem terminated_after (hsafe : Terminates s) (hgood : AssignsDetached s a)
    (h : step s a = some t) : t.1.terminated = s.1.terminated ++ (s.2.lost a).toList := by
  obtain ⟨hcode, -⟩ := step_eq_some h
  generalize t.1 = u at hcode
  cases hcode with
  | @moveAssign i o this other hthis ho =>
    have hdetached := hgood this (Or.inl hthis)
    have hdue : s.2.due i = none := by
      rw [← hsafe.handles i this hthis, Handle.terminates, if_pos hdetached]
    have hlost : s.2.lost (.moveAssign i o) = none := by
      change (if i = o then none else s.2.due i) = none
      rw [hdue, ite_self]
    rw [hlost]
    exact (List.append_nil _).symm
  | @destroy i this hthis =>
    change s.1.terminated ++ this.terminates.toList = s.1.terminated ++ (s.2.due i).toList
    rw [hsafe.handles i this hthis]
  | _ => exact (List.append_nil _).symm

theorem handles_after (hinv : Owned s) (hsafe : Terminates s) (hgood : AssignsDetached s a)
    (h : step s a = some t) (k : ι) (this : Handle π) (hk : t.1.handles k = some this) :
    this.terminates = t.2.due k := by
  obtain ⟨hcode, howners⟩ := step_eq_some h
  rw [howners]
  generalize t.1 = u at hcode hk
  have hother : ∀ owners : Owners ι π, owners.owner k = s.2.owner k →
      owners.detached = s.2.detached → s.1.handles k = some this →
      this.terminates = owners.due k := by
    intro owners howner hdetached hk
    rw [due_congr howner hdetached]
    exact hsafe.handles k this hk
  cases hcode with
  | @spawn i pid hfree hnew =>
    simp only [update_eq_some] at hk
    rcases hk with ⟨hki, hthis⟩ | ⟨hki, hk⟩
    · have hnot : pid ∉ s.2.detached := fun hmem => hnew (hinv.spawned pid (Or.inr hmem))
      obtain rfl := Option.some.inj hthis
      rw [hki, due_spawn hnot]
      rfl
    · exact hother _ (Function.update_of_ne hki _ _) rfl hk
  | @moveConstruct i o other hfree ho =>
    have hio : i ≠ o := ne_of_apply_ne s.1.handles (by simp [hfree, ho])
    simp only [Program.put, update_eq_some] at hk
    rcases hk with ⟨hki, hthis⟩ | ⟨hki, ⟨hko, hthis⟩ | ⟨hko, hk⟩⟩
    · obtain rfl := Option.some.inj hthis
      rw [hki, due_moveConstruct]
      exact hsafe.handles o other ho
    · obtain rfl := Option.some.inj hthis
      rw [hko, due_of_none (move_source hio)]
      rfl
    · exact hother _ (move_of_ne hki hko) rfl hk
  | @moveAssign i o this' other hthis ho =>
    have hdue : s.2.due o = none := by
      rw [← hsafe.handles o other ho, Handle.terminates, if_pos (hgood other (Or.inr ho))]
    simp only [Program.put, update_eq_some] at hk
    rcases hk with ⟨hki, hthis⟩ | ⟨hki, ⟨hko, hthis⟩ | ⟨hko, hk⟩⟩
    · obtain rfl := Option.some.inj hthis
      rw [hki, due_moveAssign, hdue]
      rfl
    · obtain rfl := Option.some.inj hthis
      rw [hko] at hki ⊢
      rw [due_of_none (move_source (Ne.symm hki))]
      rfl
    · exact hother _ (move_of_ne hki hko) rfl hk
  | @detach i this' hthis =>
    simp only [Program.put, update_eq_some] at hk
    rcases hk with ⟨hki, hthis⟩ | ⟨hki, hk⟩
    · obtain rfl := Option.some.inj hthis
      rw [hki, due_detach_self]
      rfl
    · rw [due_detach_of_ne hinv.exclusive hki]
      exact hsafe.handles k this hk
  | @destroy i this' hthis =>
    simp only [update_eq_some] at hk
    rcases hk with ⟨-, hnone⟩ | ⟨hki, hk⟩
    · cases hnone
    · exact hother _ (Function.update_of_ne hki _ _) rfl hk

theorem terminates_step (hinv : Owned s) (hsafe : Terminates s) (hgood : AssignsDetached s a)
    (h : step s a = some t) : Terminates t := by
  have hcounts := counts_after hinv hsafe h (terminated_after hsafe hgood h)
  exact ⟨handles_after hinv hsafe hgood h, fun p => (hcounts p).1, fun p => (hcounts p).2⟩

omit [DecidableEq ι] in
theorem due_of_attached (hsafe : Terminates s) {k : ι} {this : Handle π}
    (hk : s.1.handles k = some this) (hattached : this.detached_ ≠ true) :
    s.2.due k = some this.pid_ := by
  rw [← hsafe.handles k this hk, Handle.terminates, if_neg hattached]

/-- The assignment leaves two handles that terminate nothing: a process that either had is lost. -/
theorem not_terminates_of_assign (hinv : Owned s) (hsafe : Terminates s) {i o : ι}
    (hbad : ¬ AssignsDetached s (.moveAssign i o)) (h : step s (.moveAssign i o) = some t) :
    ¬ Terminates t := by
  intro hafter
  have horphan := orphan_after hinv h
  obtain ⟨hcode, howners⟩ := step_eq_some h
  obtain ⟨code, owners⟩ := t
  obtain rfl : owners = s.2.after (.moveAssign i o) := howners
  cases hcode with
  | @moveAssign _ _ this other hthis ho =>
    have hsource : other.detached_ = true := by
      by_contra hattached
      have hnone := hafter.handles i ⟨true, other.pid_⟩ (Function.update_self _ _ _)
      rw [due_moveAssign, due_of_attached hsafe ho hattached] at hnone
      cases hnone
    apply hbad
    intro x hx
    rcases hx with hx | hx
    · obtain rfl := Option.some.inj (hthis.symm.trans hx)
      by_contra hattached
      have hdue := due_of_attached hsafe hthis hattached
      have hio : i ≠ o := by
        intro heq
        rw [heq, ho] at hthis
        exact hattached (Option.some.inj hthis ▸ hsource)
      have hlost : s.2.lost (.moveAssign i o) = some this.pid_ := by
        rw [← hdue]
        exact if_neg hio
      have hbefore := hsafe.never this.pid_ (fun hno => hno.2.2 (lost_held hlost))
      have hcount := hafter.once this.pid_ ((horphan this.pid_).mpr (Or.inr hlost))
      exact absurd (hbefore.symm.trans hcount) Nat.zero_ne_one
    · obtain rfl := Option.some.inj (ho.symm.trans hx)
      exact hsource

omit [DecidableEq ι] in
theorem terminates_init : Terminates (init : Program ι π × Owners ι π) where
  handles := by
    intro h this hthis
    cases hthis
  once := by
    intro p horphan
    cases horphan.1
  never := fun _ _ => rfl

/-- Each process is terminated by its owner in every state of the run exactly if no handle that
would terminate something takes part in a move assignment. -/
theorem handles_terminate_iff {as : List (Operation ι π)} {s : Program ι π × Owners ι π}
    (h : run step init as = some s) :
    Throughout step Terminates init as ↔ Meets step AssignsDetached init as := by
  have hbreaks : ∀ (s : Program ι π × Owners ι π) (a) (t), Owned s → Terminates s →
      ¬ AssignsDetached s a → step s a = some t → ¬ Terminates t := by
    intro s a t hinv hsafe hbad hstep
    cases a with
    | moveAssign i o => exact not_terminates_of_assign hinv hsafe hbad hstep
    | _ => exact absurd trivial hbad
  exact throughout_iff_meets (fun _ _ _ => owned_step) (fun _ _ _ => terminates_step)
    (fun _ _ hsafe => hsafe) hbreaks owned_init terminates_init h

/-- A process changes its handle, is detached and changes it again. -/
def passing : List (Operation Nat Nat) :=
  [.spawn 0 100, .moveConstruct 1 0, .destroy 0, .detach 1, .spawn 2 101, .moveConstruct 3 1,
    .destroy 3, .destroy 2]

theorem passing_terminates : Throughout step Terminates init passing := by
  refine (handles_terminate_iff rfl).mpr ?_
  simp [passing, Meets, AssignsDetached]

/-- A process is moved onto a handle that has one, then both handles are destroyed. -/
def overwriting : List (Operation Nat Nat) :=
  [.spawn 0 100, .spawn 1 101, .moveAssign 0 1, .destroy 0, .destroy 1]

/-- Neither process was terminated. -/
theorem overwriting_leaks :
    ∃ s, run step init overwriting = some s ∧ s.1.terminated = [] ∧ ¬ Terminates s := by
  refine ⟨_, rfl, rfl, ?_⟩
  intro h
  have hnobody : ∀ i, (overwriting.foldl after Owners.init).owner i ≠ some 100 := by
    intro i
    simp only [overwriting, List.foldl_cons, List.foldl_nil, after, Owners.init, move,
      Function.update_apply]
    grind
  have hcount := h.once 100 ⟨by decide, by decide, fun hheld => hheld.elim hnobody⟩
  cases hcount

end Process
