import Mathlib.Logic.Function.Basic
import Wasivst.Lib.Transition

/-!
# `MutualRecursionHelper` and its mutex

The helper of `mutual-recursion.h` with any number of threads. The functions that are passed to
it belong to the program: they call `fork()`, `handle()` and `maybe_handle()` and return as they
like. A thread is where it is in the helper, and the calls that it will return to. Every critical
section without a call in it is one step; in `maybe_handle()` the mutex is held across
`asio::dispatch()`. Of asio: `dispatch()` on a thread inside `run()` of the context calls the
function at once, else the function is queued, and `run()` returns when neither a function nor
the work guard is left.
-/

set_option autoImplicit false

namespace MutualRecursionHelper
open Transition

/-- A call that the thread is in the middle of: of a function of the program that was passed to
`maybe_handle()`, of one that `handle()` calls itself, of `run()` of a context, or of
`asio::dispatch()` with the mutex held. -/
inductive Frame where
  | task (k : Nat)
  | direct (k : Nat)
  | run (c : Nat)
  | dispatch (k : Nat)
  deriving DecidableEq

/-- What the thread was made for: the program, or to call the function passed to `fork()`. -/
inductive Base where
  | app
  | sending (c : Nat)
  deriving DecidableEq

/-- The statement that the thread is at; `user` is in a function of the program. -/
inductive Pc where
  | absent
  | user
  | forkLock (c : Nat)
  | forkStart (c : Nat)
  | runLoop (c : Nat)
  | getResponse (c : Nat)
  | finishLock (c : Nat)
  | ended
  | lock (k : Nat) (orElse : Bool)
  | dispatching (k c : Nat)
  | unlock (k : Nat)
  | getResult (k : Nat)
  deriving DecidableEq

structure Thread where
  base : Base
  stack : List Frame
  pc : Pc

/-- What happened to a context, numbered by the calls of `fork()`, and to a function, numbered by
the calls of `handle()` and `maybe_handle()`. -/
inductive Event where
  | pushed (c t : Nat)
  | fnReturned (c : Nat)
  | erased (c : Nat)
  | forkReturned (c : Nat)
  | accepted (k c : Nat)
  | called (k t : Nat)
  | returned (k : Nat)
  deriving DecidableEq

/-- `contexts` is `mutual_recursion_contexts_`; `guard`, `queue` and `promise` belong to a context,
`ready` to a packaged task. The log has the latest event first. -/
structure State where
  threads : Nat → Thread
  mutex : Option Nat
  contexts : List Nat
  guard : Nat → Bool
  queue : Nat → List Nat
  promise : Nat → Bool
  ready : Nat → Bool
  nextContext : Nat
  nextTask : Nat
  log : List Event

def init : State where
  threads _ := ⟨.app, [], .absent⟩
  mutex := none
  contexts := []
  guard _ := false
  queue _ := []
  promise _ := false
  ready _ := false
  nextContext := 0
  nextTask := 0
  log := []

/-- A new thread of the program; a call by a function of the program; its return; and the next
statement of the helper or of asio, where `u` is the thread that `fork()` starts. -/
inductive Action where
  | begin (t : Nat)
  | fork (t : Nat)
  | handle (t : Nat) (orElse : Bool)
  | ret (t : Nat)
  | next (t u : Nat)

namespace State

def set (s : State) (t : Nat) (th : Thread) : State :=
  { s with threads := Function.update s.threads t th }

/-- The thread goes on at `pc`, with the same calls to return to. -/
def goto (s : State) (t : Nat) (pc : Pc) : State := s.set t { s.threads t with pc := pc }

def record (s : State) (e : Event) : State := { s with log := e :: s.log }

end State

def stepCall (s : State) (t : Nat) (pc : Pc) : Option State :=
  if (s.threads t).pc = .user then some (s.goto t pc) else none

/-- A function of the program returns. -/
def stepReturn (s : State) (t : Nat) : Option State :=
  if (s.threads t).pc = .user then
    match (s.threads t).stack with
    | .task k :: .run c :: rest =>
      some { (s.set t ⟨(s.threads t).base, rest, .runLoop c⟩).record (.returned k) with
        ready := Function.update s.ready k true }
    | .task k :: .dispatch k' :: rest =>
      some { (s.set t ⟨(s.threads t).base, rest, .unlock k'⟩).record (.returned k) with
        ready := Function.update s.ready k true }
    | .direct k :: rest =>
      some ((s.set t ⟨(s.threads t).base, rest, .user⟩).record (.returned k))
    | [] =>
      match (s.threads t).base with
      | .sending c => some ((s.goto t (.finishLock c)).record (.fnReturned c))
      | .app => some (s.goto t .ended)
    | _ => none
  else none

def stepNext (s : State) (t u : Nat) : Option State :=
  match (s.threads t).pc with
  | .forkLock c =>
    if s.mutex = none then
      some { (s.goto t (.forkStart c)).record (.pushed c t) with contexts := s.contexts ++ [c] }
    else none
  | .forkStart c =>
    if u ≠ t ∧ (s.threads u).pc = .absent then
      some { (s.goto t (.runLoop c)).set u ⟨.sending c, [], .user⟩ with
        guard := Function.update s.guard c true }
    else none
  | .runLoop c =>
    match s.queue c with
    | k :: rest =>
      some { (s.set t ⟨(s.threads t).base, .task k :: .run c :: (s.threads t).stack, .user⟩).record
          (.called k t) with
        queue := Function.update s.queue c rest }
    | [] => if s.guard c = false then some (s.goto t (.getResponse c)) else none
  | .getResponse c =>
    if s.promise c then some ((s.goto t .user).record (.forkReturned c)) else none
  | .finishLock c =>
    if s.mutex = none then
      some { (s.goto t .ended).record (.erased c) with
        guard := Function.update s.guard c false
        contexts := s.contexts.erase c
        promise := Function.update s.promise c true }
    else none
  | .lock k orElse =>
    if s.mutex = none then
      match s.contexts.getLast? with
      | some c =>
        some { (s.goto t (.dispatching k c)).record (.accepted k c) with mutex := some t }
      | none =>
        if orElse then
          some ((s.set t ⟨(s.threads t).base, .direct k :: (s.threads t).stack, .user⟩).record
            (.called k t))
        else some (s.goto t .user)
    else none
  | .dispatching k c =>
    if .run c ∈ (s.threads t).stack then
      some ((s.set t ⟨(s.threads t).base, .task k :: .dispatch k :: (s.threads t).stack,
        .user⟩).record (.called k t))
    else
      some { s.goto t (.unlock k) with queue := Function.update s.queue c (s.queue c ++ [k]) }
  | .unlock k => some { s.goto t (.getResult k) with mutex := none }
  | .getResult k => if s.ready k then some (s.goto t .user) else none
  | .absent | .user | .ended => none

def step (s : State) : Action → Option State
  | .begin t =>
    if (s.threads t).pc = .absent then some (s.set t ⟨.app, [], .user⟩) else none
  | .fork t =>
    (stepCall s t (.forkLock s.nextContext)).map fun s' =>
      { s' with nextContext := s.nextContext + 1 }
  | .handle t orElse =>
    (stepCall s t (.lock s.nextTask orElse)).map fun s' => { s' with nextTask := s.nextTask + 1 }
  | .ret t => stepReturn s t
  | .next t u => stepNext s t u

/-! ## What one step can do -/

/-- Every step, with what it finds. -/
inductive StepTo (s : State) : Action → State → Prop
  | begin {t : Nat} (hpc : (s.threads t).pc = .absent) :
    StepTo s (.begin t) (s.set t ⟨.app, [], .user⟩)
  | fork {t : Nat} (hpc : (s.threads t).pc = .user) :
    StepTo s (.fork t)
      { s.goto t (.forkLock s.nextContext) with nextContext := s.nextContext + 1 }
  | handle {t : Nat} {orElse : Bool} (hpc : (s.threads t).pc = .user) :
    StepTo s (.handle t orElse)
      { s.goto t (.lock s.nextTask orElse) with nextTask := s.nextTask + 1 }
  | taskReturn {t k c : Nat} {rest : List Frame} (hpc : (s.threads t).pc = .user)
    (hstack : (s.threads t).stack = .task k :: .run c :: rest) :
    StepTo s (.ret t)
      { (s.set t ⟨(s.threads t).base, rest, .runLoop c⟩).record (.returned k) with
        ready := Function.update s.ready k true }
  | inlineReturn {t k k' : Nat} {rest : List Frame} (hpc : (s.threads t).pc = .user)
    (hstack : (s.threads t).stack = .task k :: .dispatch k' :: rest) :
    StepTo s (.ret t)
      { (s.set t ⟨(s.threads t).base, rest, .unlock k'⟩).record (.returned k) with
        ready := Function.update s.ready k true }
  | directReturn {t k : Nat} {rest : List Frame} (hpc : (s.threads t).pc = .user)
    (hstack : (s.threads t).stack = .direct k :: rest) :
    StepTo s (.ret t) ((s.set t ⟨(s.threads t).base, rest, .user⟩).record (.returned k))
  | fnReturn {t c : Nat} (hpc : (s.threads t).pc = .user) (hstack : (s.threads t).stack = [])
    (hbase : (s.threads t).base = .sending c) :
    StepTo s (.ret t) ((s.goto t (.finishLock c)).record (.fnReturned c))
  | exit {t : Nat} (hpc : (s.threads t).pc = .user) (hstack : (s.threads t).stack = [])
    (hbase : (s.threads t).base = .app) : StepTo s (.ret t) (s.goto t .ended)
  | push {t u c : Nat} (hpc : (s.threads t).pc = .forkLock c) (hmutex : s.mutex = none) :
    StepTo s (.next t u)
      { (s.goto t (.forkStart c)).record (.pushed c t) with contexts := s.contexts ++ [c] }
  | start {t u c : Nat} (hpc : (s.threads t).pc = .forkStart c) (hne : u ≠ t)
    (habsent : (s.threads u).pc = .absent) :
    StepTo s (.next t u)
      { (s.goto t (.runLoop c)).set u ⟨.sending c, [], .user⟩ with
        guard := Function.update s.guard c true }
  | runTask {t u c k : Nat} {rest : List Nat} (hpc : (s.threads t).pc = .runLoop c)
    (hqueue : s.queue c = k :: rest) :
    StepTo s (.next t u)
      { (s.set t ⟨(s.threads t).base, .task k :: .run c :: (s.threads t).stack, .user⟩).record
          (.called k t) with
        queue := Function.update s.queue c rest }
  | runReturn {t u c : Nat} (hpc : (s.threads t).pc = .runLoop c) (hqueue : s.queue c = [])
    (hguard : s.guard c = false) : StepTo s (.next t u) (s.goto t (.getResponse c))
  | forkReturn {t u c : Nat} (hpc : (s.threads t).pc = .getResponse c)
    (hpromise : s.promise c = true) :
    StepTo s (.next t u) ((s.goto t .user).record (.forkReturned c))
  | erase {t u c : Nat} (hpc : (s.threads t).pc = .finishLock c) (hmutex : s.mutex = none) :
    StepTo s (.next t u)
      { (s.goto t .ended).record (.erased c) with
        guard := Function.update s.guard c false
        contexts := s.contexts.erase c
        promise := Function.update s.promise c true }
  | accept {t u k c : Nat} {orElse : Bool} (hpc : (s.threads t).pc = .lock k orElse)
    (hmutex : s.mutex = none) (htop : s.contexts.getLast? = some c) :
    StepTo s (.next t u)
      { (s.goto t (.dispatching k c)).record (.accepted k c) with mutex := some t }
  | callDirect {t u k : Nat} (hpc : (s.threads t).pc = .lock k true) (hmutex : s.mutex = none)
    (htop : s.contexts.getLast? = none) :
    StepTo s (.next t u)
      ((s.set t ⟨(s.threads t).base, .direct k :: (s.threads t).stack, .user⟩).record (.called k t))
  | decline {t u k : Nat} (hpc : (s.threads t).pc = .lock k false) (hmutex : s.mutex = none)
    (htop : s.contexts.getLast? = none) : StepTo s (.next t u) (s.goto t .user)
  | dispatchInline {t u k c : Nat} (hpc : (s.threads t).pc = .dispatching k c)
    (hrun : .run c ∈ (s.threads t).stack) :
    StepTo s (.next t u)
      ((s.set t ⟨(s.threads t).base, .task k :: .dispatch k :: (s.threads t).stack,
        .user⟩).record (.called k t))
  | enqueue {t u k c : Nat} (hpc : (s.threads t).pc = .dispatching k c)
    (hrun : .run c ∉ (s.threads t).stack) :
    StepTo s (.next t u)
      { s.goto t (.unlock k) with queue := Function.update s.queue c (s.queue c ++ [k]) }
  | release {t u k : Nat} (hpc : (s.threads t).pc = .unlock k) :
    StepTo s (.next t u) { s.goto t (.getResult k) with mutex := none }
  | result {t u k : Nat} (hpc : (s.threads t).pc = .getResult k) (hready : s.ready k = true) :
    StepTo s (.next t u) (s.goto t .user)

theorem stepCall_eq_some {s s' : State} {t : Nat} {pc : Pc} (h : stepCall s t pc = some s') :
    (s.threads t).pc = .user ∧ s' = s.goto t pc := by
  unfold stepCall at h
  split_ifs at h with hpc
  exact ⟨hpc, (Option.some.inj h).symm⟩

theorem stepReturn_to {s s' : State} {t : Nat} (h : stepReturn s t = some s') :
    StepTo s (.ret t) s' := by
  unfold stepReturn at h
  split_ifs at h with hpc
  split at h
  · rename_i hstack
    exact Option.some.inj h ▸ .taskReturn hpc hstack
  · rename_i hstack
    exact Option.some.inj h ▸ .inlineReturn hpc hstack
  · rename_i hstack
    exact Option.some.inj h ▸ .directReturn hpc hstack
  · rename_i hstack
    split at h
    · rename_i hbase
      exact Option.some.inj h ▸ .fnReturn hpc hstack hbase
    · rename_i hbase
      exact Option.some.inj h ▸ .exit hpc hstack hbase
  · cases h

theorem stepNext_to {s s' : State} {t u : Nat} (h : stepNext s t u = some s') :
    StepTo s (.next t u) s' := by
  unfold stepNext at h
  split at h
  · rename_i hpc
    split_ifs at h with hmutex
    exact Option.some.inj h ▸ .push hpc hmutex
  · rename_i hpc
    split_ifs at h with hu
    exact Option.some.inj h ▸ .start hpc hu.1 hu.2
  · rename_i hpc
    split at h
    · rename_i hqueue
      exact Option.some.inj h ▸ .runTask hpc hqueue
    · rename_i hqueue
      split_ifs at h with hguard
      exact Option.some.inj h ▸ .runReturn hpc hqueue hguard
  · rename_i hpc
    split_ifs at h with hpromise
    exact Option.some.inj h ▸ .forkReturn hpc hpromise
  · rename_i hpc
    split_ifs at h with hmutex
    exact Option.some.inj h ▸ .erase hpc hmutex
  · rename_i hpc
    split at h
    · rename_i hmutex
      split at h
      · rename_i htop
        exact Option.some.inj h ▸ .accept hpc hmutex htop
      · rename_i htop
        split at h
        · rename_i horElse
          subst horElse
          exact Option.some.inj h ▸ .callDirect hpc hmutex htop
        · rename_i horElse
          rw [Bool.not_eq_true] at horElse
          subst horElse
          exact Option.some.inj h ▸ .decline hpc hmutex htop
    · cases h
  · rename_i hpc
    split_ifs at h with hrun
    · exact Option.some.inj h ▸ .dispatchInline hpc hrun
    · exact Option.some.inj h ▸ .enqueue hpc hrun
  · rename_i hpc
    exact Option.some.inj h ▸ .release hpc
  · rename_i hpc
    split_ifs at h with hready
    exact Option.some.inj h ▸ .result hpc hready
  all_goals cases h

theorem step_to {s s' : State} {a : Action} (h : step s a = some s') : StepTo s a s' := by
  cases a with
  | begin t =>
    simp only [step] at h
    split_ifs at h with hpc
    exact Option.some.inj h ▸ .begin hpc
  | fork t =>
    obtain ⟨s₁, h₁, rfl⟩ := Option.map_eq_some_iff.mp h
    obtain ⟨hpc, rfl⟩ := stepCall_eq_some h₁
    exact .fork hpc
  | handle t orElse =>
    obtain ⟨s₁, h₁, rfl⟩ := Option.map_eq_some_iff.mp h
    obtain ⟨hpc, rfl⟩ := stepCall_eq_some h₁
    exact .handle hpc
  | ret t => exact stepReturn_to h
  | next t u => exact stepNext_to h

/-! ## Who holds the mutex -/

def Frame.isDispatch : Frame → Bool
  | dispatch _ => true
  | _ => false

/-- In `maybe_handle()` between taking and releasing the mutex. -/
def Pc.inCritical : Pc → Bool
  | dispatching _ _ | unlock _ => true
  | _ => false

/-- Waiting for the mutex. -/
def Pc.atLock : Pc → Bool
  | forkLock _ | finishLock _ | lock _ _ => true
  | _ => false

/-- The thread is not there yet or its base function has returned. -/
def Pc.isOutside : Pc → Bool
  | absent | ended | finishLock _ => true
  | _ => false

/-- How often the thread has the mutex. -/
def Thread.holds (th : Thread) : Nat := th.pc.inCritical.toNat + th.stack.countP Frame.isDispatch

structure LockInv (s : State) : Prop where
  holds : ∀ t, (s.threads t).holds = if s.mutex = some t then 1 else 0
  outside : ∀ t, (s.threads t).pc.isOutside → (s.threads t).stack = []

theorem lockInv_init : LockInv init := by
  constructor
  · intro t
    rfl
  · intro t _
    rfl

/-- One thread moves, to a place where it has the mutex as the new owner says. -/
theorem LockInv.move {s s' : State} (hs : LockInv s) {t : Nat} {th : Thread}
    (hthreads : s'.threads = Function.update s.threads t th)
    (howner : ∀ u, u ≠ t → (s'.mutex = some u ↔ s.mutex = some u))
    (hholds : th.holds = if s'.mutex = some t then 1 else 0)
    (houtside : th.pc.isOutside → th.stack = []) : LockInv s' := by
  constructor
  · intro u
    rw [hthreads]
    by_cases hu : u = t
    · subst hu
      rw [Function.update_self]
      exact hholds
    · rw [Function.update_of_ne hu, hs.holds u]
      simp only [howner u hu]
  · intro u
    rw [hthreads]
    by_cases hu : u = t
    · subst hu
      rw [Function.update_self]
      exact houtside
    · rw [Function.update_of_ne hu]
      exact hs.outside u

/-- The mutex stays where it is. -/
theorem LockInv.stay {s s' : State} (hs : LockInv s) {t : Nat} {th : Thread}
    (hthreads : s'.threads = Function.update s.threads t th) (hmutex : s'.mutex = s.mutex)
    (hholds : th.holds = (s.threads t).holds) (houtside : th.pc.isOutside → th.stack = []) :
    LockInv s' := by
  apply hs.move hthreads
  · intro u _
    rw [hmutex]
  · rw [hholds, hs.holds t, hmutex]
  · exact houtside

theorem lockInv_step (s : State) (a : Action) (s' : State) (hs : LockInv s)
    (h : step s a = some s') : LockInv s' := by
  cases step_to h with
  | begin hpc =>
    refine hs.stay rfl rfl ?_ fun _ => rfl
    simp [Thread.holds, hpc, Pc.inCritical, hs.outside _ (by rw [hpc]; rfl)]
  | fork hpc | handle hpc | result hpc _ | decline hpc _ _ | push hpc _ | forkReturn hpc _
  | runReturn hpc _ _ =>
    refine hs.stay rfl rfl ?_ (by intro hout; cases hout)
    simp [Thread.holds, hpc, Pc.inCritical]
  | taskReturn hpc hstack | inlineReturn hpc hstack | directReturn hpc hstack =>
    refine hs.stay rfl rfl ?_ (by intro hout; cases hout)
    simp [Thread.holds, hpc, Pc.inCritical, hstack, List.countP_cons, Frame.isDispatch,
      Nat.add_comm]
  | fnReturn hpc hstack _ | exit hpc hstack _ =>
    refine hs.stay rfl rfl ?_ fun _ => hstack
    simp [Thread.holds, hpc, Pc.inCritical]
  | erase hpc _ =>
    refine hs.stay rfl rfl ?_ fun _ => hs.outside _ (by rw [hpc]; rfl)
    simp [Thread.holds, hpc, Pc.inCritical]
  | runTask hpc _ | callDirect hpc _ _ | dispatchInline hpc _ | enqueue hpc _ =>
    refine hs.stay rfl rfl ?_ (by intro hout; cases hout)
    simp [Thread.holds, hpc, Pc.inCritical, List.countP_cons, Frame.isDispatch, Nat.add_comm]
  | @start t u c hpc hne habsent =>
    have hmid : LockInv (s.goto t (.runLoop c)) := by
      refine hs.stay rfl rfl ?_ (by intro hout; cases hout)
      simp [Thread.holds, hpc, Pc.inCritical]
    refine hmid.stay rfl rfl ?_ fun _ => rfl
    have hu : (s.goto t (.runLoop c)).threads u = s.threads u := Function.update_of_ne hne _ _
    simp [Thread.holds, hu, habsent, Pc.inCritical, hs.outside u (by rw [habsent]; rfl)]
  | @accept t u k c orElse hpc hmutex _ =>
    have hholds := hs.holds t
    refine hs.move rfl ?_ ?_ (by intro hout; cases hout)
    · intro v hv
      simp [hmutex, Ne.symm hv]
    · simp only [Thread.holds, hpc, Pc.inCritical, hmutex, reduceCtorEq, if_false] at hholds
      simpa [Thread.holds, Pc.inCritical] using hholds
  | @release t u k hpc =>
    have hholds := hs.holds t
    have howner : s.mutex = some t := by
      by_contra hne
      simp [Thread.holds, hpc, Pc.inCritical, hne] at hholds
    refine hs.move rfl ?_ ?_ (by intro hout; cases hout)
    · intro v hv
      simp [howner, Ne.symm hv]
    · simp only [Thread.holds, hpc, Pc.inCritical, howner, if_true] at hholds
      simpa [Thread.holds, Pc.inCritical] using hholds

/-! ## Taking the mutex twice -/

/-- No thread waits for the mutex while it has it. -/
def NoRelock (s : State) : Prop := ∀ t, (s.threads t).pc.atLock → s.mutex ≠ some t

/-- The thread is not in a function that `asio::dispatch()` calls with the mutex held. -/
def Thread.NotInline (th : Thread) : Prop := th.stack.countP Frame.isDispatch = 0

/-- The helper is not called by a function that runs inline. -/
def CallsOutside (s : State) : Action → Prop
  | .fork t => (s.threads t).NotInline
  | .handle t _ => (s.threads t).NotInline
  | _ => True

def WaitsOutside (s : State) : Prop := ∀ t, (s.threads t).pc.atLock → (s.threads t).NotInline

theorem noRelock_of_waitsOutside (s : State) (hs : LockInv s) (hw : WaitsOutside s) :
    NoRelock s := by
  intro t hlock howner
  have hholds := hs.holds t
  have hcrit : (s.threads t).pc.inCritical = false := by
    cases hpc : (s.threads t).pc <;> simp_all [Pc.atLock, Pc.inCritical]
  rw [if_pos howner, Thread.holds, hcrit, hw t hlock] at hholds
  cases hholds

theorem WaitsOutside.move {s s' : State} (hs : WaitsOutside s) {t : Nat} {th : Thread}
    (hthreads : s'.threads = Function.update s.threads t th) (hth : th.pc.atLock → th.NotInline) :
    WaitsOutside s' := by
  intro u
  rw [hthreads]
  by_cases hu : u = t
  · subst hu
    rw [Function.update_self]
    exact hth
  · rw [Function.update_of_ne hu]
    exact hs u

theorem waitsOutside_step (s : State) (a : Action) (s' : State) (_ : LockInv s)
    (hs : WaitsOutside s) (hgood : CallsOutside s a) (h : step s a = some s') :
    WaitsOutside s' := by
  cases step_to h with
  | fork _ | handle _ => exact hs.move rfl fun _ => hgood
  | fnReturn _ hstack _ =>
    apply hs.move rfl
    intro _
    simp [Thread.NotInline, hstack]
  | @start t u c hpc hne habsent =>
    have hmid : WaitsOutside (s.goto t (.runLoop c)) := by
      apply hs.move rfl
      intro hlock
      cases hlock
    apply hmid.move rfl
    intro hlock
    cases hlock
  | _ => exact hs.move rfl (by intro hlock; cases hlock)

/-- A call from a function that runs inline leaves the thread waiting for its own mutex. -/
theorem relock_of_call (s : State) (a : Action) (s' : State) (hs : LockInv s)
    (hbad : ¬ CallsOutside s a) (h : step s a = some s') : ¬ NoRelock s' := by
  have howner : ∀ t, ¬ (s.threads t).NotInline → s.mutex = some t := by
    intro t ht
    have hholds := hs.holds t
    by_contra hne
    rw [if_neg hne, Thread.holds] at hholds
    exact ht (by unfold Thread.NotInline; omega)
  cases step_to h with
  | @fork t hpc =>
    intro hno
    refine hno t ?_ (howner t hbad)
    simp [State.goto, State.set, Pc.atLock]
  | @handle t orElse hpc =>
    intro hno
    refine hno t ?_ (howner t hbad)
    simp [State.goto, State.set, Pc.atLock]
  | _ => exact absurd trivial hbad

/-- In a run no thread ever waits for the mutex that it has itself, exactly if no function that
`maybe_handle()` runs inline calls the helper. -/
theorem relock_free_iff {s : State} {as : List Action} (h : run step init as = some s) :
    Throughout step NoRelock init as ↔ Meets step CallsOutside init as :=
  throughout_iff_meets lockInv_step waitsOutside_step noRelock_of_waitsOutside
    (fun s a t hs _ => relock_of_call s a t hs) lockInv_init (fun _ hlock => by cases hlock) h

/-- The function of a `fork()` calls `handle()`, then returns, and so does the `fork()`. -/
def handledFork : List Action :=
  [.begin 0, .fork 0, .next 0 0, .next 0 1, .handle 1 true, .next 1 1, .next 1 1, .next 1 1,
    .next 0 0, .ret 0, .next 1 1, .ret 1, .next 1 1, .next 0 0, .next 0 0]

/-- A handled function calls `handle()`, whose function runs inline and calls `handle()` again. -/
def nestedHandle : List Action :=
  [.begin 0, .fork 0, .next 0 0, .next 0 1, .handle 1 true, .next 1 0, .next 1 0, .next 1 0,
    .next 0 0, .handle 0 true, .next 0 0, .next 0 0, .handle 0 true]

instance (s : State) : (a : Action) → Decidable (CallsOutside s a)
  | .fork t => inferInstanceAs (Decidable ((s.threads t).stack.countP Frame.isDispatch = 0))
  | .handle t _ => inferInstanceAs (Decidable ((s.threads t).stack.countP Frame.isDispatch = 0))
  | .begin _ | .ret _ | .next _ _ => inferInstanceAs (Decidable True)

theorem relock_free_fork : ∃ s, run step init handledFork = some s ∧
    Throughout step NoRelock init handledFork := by
  obtain ⟨s, hs⟩ : ∃ s, run step init handledFork = some s :=
    Option.isSome_iff_exists.mp (by decide)
  exact ⟨s, hs, (relock_free_iff hs).mpr (by decide)⟩

theorem relock_in_nested_handle :
    ¬ ∀ (as : List Action) (s : State), run step init as = some s →
      Throughout step NoRelock init as := by
  intro h
  have hend : (run step init nestedHandle).map (fun s => ((s.threads 0).pc, s.mutex)) =
      some (.lock 2 true, some 0) := by decide
  obtain ⟨s, hs, heq⟩ := Option.map_eq_some_iff.mp hend
  have hno := (h nestedHandle s hs).last hs
  simp only [Prod.mk.injEq] at heq
  exact hno 0 (by rw [heq.1]; rfl) heq.2

end MutualRecursionHelper
