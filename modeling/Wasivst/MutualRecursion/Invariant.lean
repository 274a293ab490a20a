import Mathlib.Data.List.Nodup
import Wasivst.MutualRecursion.Lock

/-!
# The invariant of `MutualRecursionHelper`

What every thread can rely on for its place and for the calls it will return to, told from the log
and from the guards and queues of the contexts; and what it keeps of that when another thread
takes a step.
-/

set_option autoImplicit false

namespace MutualRecursionHelper

/-! ## What the log says -/

/-- The contexts that were pushed, in that order. -/
def pushes : List Event → List Nat
  | [] => []
  | .pushed c _ :: l => pushes l ++ [c]
  | _ :: l => pushes l

def calls : List Event → List Nat
  | [] => []
  | .called k _ :: l => k :: calls l
  | _ :: l => calls l

/-- The contexts that no sending thread has taken off. -/
def registered (l : List Event) : List Nat := (pushes l).filter fun c => .erased c ∉ l

/-- The thread is in `fork()` for the context, and its `run()` has not returned. -/
def Thread.Serves (th : Thread) (c : Nat) : Prop :=
  th.pc = .forkStart c ∨ th.pc = .runLoop c ∨ .run c ∈ th.stack

theorem mem_pushes {l : List Event} {c : Nat} : c ∈ pushes l ↔ ∃ t, .pushed c t ∈ l := by
  induction l with
  | nil => simp [pushes]
  | cons e l ih =>
    cases e with
    | pushed c' t => simp [pushes, ih, exists_or, or_comm]
    | _ => simp [pushes, ih]

theorem mem_calls {l : List Event} {k : Nat} : k ∈ calls l ↔ ∃ t, .called k t ∈ l := by
  induction l with
  | nil => simp [calls]
  | cons e l ih =>
    cases e with
    | called k' t => simp [calls, ih, exists_or]
    | _ => simp [calls, ih]

theorem pushed_unique {l : List Event} (hl : (pushes l).Nodup) {c t u : Nat}
    (ht : .pushed c t ∈ l) (hu : .pushed c u ∈ l) : t = u := by
  induction l with
  | nil => cases ht
  | cons e l ih =>
    cases e with
    | pushed c' t' =>
      obtain ⟨hrest, -, hnew⟩ := List.nodup_append.mp hl
      simp only [List.mem_cons, Event.pushed.injEq] at ht hu
      rcases ht with ⟨rfl, rfl⟩ | ht
      · rcases hu with ⟨-, rfl⟩ | hu
        · rfl
        · exact absurd rfl (hnew c (mem_pushes.mpr ⟨u, hu⟩) c (List.mem_singleton_self c))
      · rcases hu with ⟨rfl, rfl⟩ | hu
        · exact absurd rfl (hnew c (mem_pushes.mpr ⟨t, ht⟩) c (List.mem_singleton_self c))
        · exact ih hrest ht hu
    | _ => exact ih hl (by simpa using ht) (by simpa using hu)

theorem mem_registered {l : List Event} {c : Nat} :
    c ∈ registered l ↔ c ∈ pushes l ∧ .erased c ∉ l := by
  simp [registered]

theorem registered_congr {l l' : List Event} (hpushes : pushes l' = pushes l)
    (herased : ∀ c, .erased c ∈ l' ↔ .erased c ∈ l) : registered l' = registered l := by
  simp only [registered, hpushes, herased]

theorem registered_push {l : List Event} {c t : Nat} (hc : .erased c ∉ l) :
    registered (.pushed c t :: l) = registered l ++ [c] := by
  simp [registered, pushes, hc]

theorem registered_erase {l : List Event} (hl : (pushes l).Nodup) (c : Nat) :
    registered (.erased c :: l) = (registered l).erase c := by
  rw [registered, registered, List.Nodup.erase_eq_filter (List.Nodup.filter _ hl),
    List.filter_filter]
  apply List.filter_congr
  intro d _
  by_cases hd : d = c
  · simp [hd]
  · simp [hd]

/-! ## The invariant -/

/-- The context is off the stack and every function that it accepted has returned. -/
def Left (s : State) (c : Nat) : Prop :=
  .erased c ∈ s.log ∧ ∀ k, .accepted k c ∈ s.log → .returned k ∈ s.log

/-- What thread `v` can rely on for a call on its stack, with `rest` below it. -/
def FrameOk (s : State) (v : Nat) : Frame → List Frame → Prop
  | .run c, rest =>
    .pushed c v ∈ s.log ∧ (s.guard c = true ∨ .erased c ∈ s.log) ∧ .run c ∉ rest
  | .task k, rest => .called k v ∈ s.log ∧ ∀ c, .accepted k c ∈ s.log → .run c ∈ rest
  | .direct k, _ => .called k v ∈ s.log
  | .dispatch _, _ => True

def StackOk (s : State) (v : Nat) : List Frame → Prop
  | [] => True
  | f :: rest => FrameOk s v f rest ∧ StackOk s v rest

def PcOk (s : State) (v : Nat) (stack : List Frame) : Pc → Prop
  | .forkLock c => c < s.nextContext ∧ c ∉ pushes s.log
  | .forkStart c => .pushed c v ∈ s.log ∧ .run c ∉ stack
  | .runLoop c => FrameOk s v (.run c) stack
  | .getResponse c => Left s c
  | .finishLock c => c ∈ pushes s.log ∧ .fnReturned c ∈ s.log
  | .lock k _ => k < s.nextTask ∧ k ∉ calls s.log ∧ ∀ c, .accepted k c ∉ s.log
  -- with the mutex held nobody takes the context off
  | .dispatching k c =>
    .accepted k c ∈ s.log ∧ k ∉ calls s.log ∧ (∀ d, k ∉ s.queue d) ∧ .erased c ∉ s.log
  | _ => True

structure ThreadOk (s : State) (v : Nat) (th : Thread) : Prop where
  base : ∀ c, th.base = .sending c → c ∈ pushes s.log
  stack : StackOk s v th.stack
  pc : PcOk s v th.stack th.pc
  running : ∀ k c, .accepted k c ∈ s.log → .called k v ∈ s.log →
    .returned k ∈ s.log ∨ .task k ∈ th.stack
  served : ∀ c, .pushed c v ∈ s.log → th.Serves c ∨ Left s c

structure Forks (s : State) : Prop where
  lt : ∀ c ∈ pushes s.log, c < s.nextContext
  nodup : (pushes s.log).Nodup
  contexts : s.contexts = registered s.log
  erased : ∀ c, .erased c ∈ s.log → c ∈ pushes s.log ∧ .fnReturned c ∈ s.log

structure Tasks (s : State) : Prop where
  calls_lt : ∀ k ∈ calls s.log, k < s.nextTask
  accepted_lt : ∀ k c, .accepted k c ∈ s.log → k < s.nextTask
  once : (calls s.log).Nodup
  unique : ∀ k c d, .accepted k c ∈ s.log → .accepted k d ∈ s.log → c = d
  ran : ∀ k, .returned k ∈ s.log → k ∈ calls s.log
  queue_nodup : ∀ c, (s.queue c).Nodup
  queued : ∀ c, ∀ k ∈ s.queue c, .accepted k c ∈ s.log ∧ k ∉ calls s.log

structure History (l : List Event) : Prop where
  top : ∀ k c m, (.accepted k c :: m) <:+ l → (registered m).getLast? = some c
  owner : ∀ k c t, .accepted k c ∈ l → .called k t ∈ l → .pushed c t ∈ l
  before : ∀ c k m, (.forkReturned c :: m) <:+ l → .accepted k c ∈ l → .returned k ∈ m
  left : ∀ c, .forkReturned c ∈ l → .erased c ∈ l

/-- The function that a thread in `maybe_handle()` still has for itself. -/
def Pc.waits : Pc → Option Nat
  | lock k _ | dispatching k _ => some k
  | _ => none

/-- The context that a thread in `fork()` has not pushed yet. -/
def Pc.forks : Pc → Option Nat
  | forkLock c => some c
  | _ => none

/-- No two threads have the same. -/
def Apart (f : Pc → Option Nat) (s : State) : Prop :=
  ∀ v w k, f (s.threads v).pc = some k → f (s.threads w).pc = some k → v = w

structure Inv (s : State) : Prop where
  forks : Forks s
  tasks : Tasks s
  history : History s.log
  threads : ∀ v, ThreadOk s v (s.threads v)
  kept : ∀ k c, .accepted k c ∈ s.log → k ∉ calls s.log →
    k ∈ s.queue c ∨ ∃ v, (s.threads v).pc = .dispatching k c
  waiting : Apart Pc.waits s
  forking : Apart Pc.forks s

theorem Inv.pcOk {s : State} (hs : Inv s) {t : Nat} {pc : Pc} (hpc : (s.threads t).pc = pc) :
    PcOk s t (s.threads t).stack pc := hpc ▸ (hs.threads t).pc

/-! ## What a step leaves to a thread -/

structure Grows (s s' : State) : Prop where
  log : s.log ⊆ s'.log
  nextContext : s.nextContext ≤ s'.nextContext
  nextTask : s.nextTask ≤ s'.nextTask
  guard : ∀ c, s.guard c = true ∨ .erased c ∈ s.log → s'.guard c = true ∨ .erased c ∈ s'.log
  accepted : ∀ k c, .accepted k c ∈ s'.log →
    .accepted k c ∈ s.log ∨ (k ∉ calls s.log ∧ .erased c ∉ s.log)

/-- Another thread's step, for thread `v` at `pc`. -/
structure Rely (s s' : State) (v : Nat) (pc : Pc) : Prop extends Grows s s' where
  pushed : ∀ c, .pushed c v ∈ s'.log → .pushed c v ∈ s.log
  called : ∀ k, .called k v ∈ s'.log → .called k v ∈ s.log
  forking : ∀ c, pc.forks = some c → c ∈ pushes s'.log → c ∈ pushes s.log
  waiting : ∀ k, pc.waits = some k → (k ∈ calls s'.log → k ∈ calls s.log) ∧
    (∀ c, .accepted k c ∈ s'.log → .accepted k c ∈ s.log) ∧ ∀ c, k ∈ s'.queue c → k ∈ s.queue c
  dispatching : ∀ k c, pc = .dispatching k c → .erased c ∈ s'.log → .erased c ∈ s.log

section Rely
variable {s s' : State} {v : Nat}

theorem Left.grows {c : Nat} (hc : Left s c) (h : Grows s s') : Left s' c := by
  refine ⟨h.log hc.1, ?_⟩
  intro k hk
  rcases h.accepted k c hk with hold | ⟨-, hnot⟩
  · exact h.log (hc.2 k hold)
  · exact absurd hc.1 hnot

theorem Grows.pushes (h : Grows s s') {c : Nat} (hc : c ∈ pushes s.log) : c ∈ pushes s'.log := by
  obtain ⟨t, ht⟩ := mem_pushes.mp hc
  exact mem_pushes.mpr ⟨t, h.log ht⟩

/-- A function that has been called is not accepted any more. -/
theorem Grows.accepted_of_called (h : Grows s s') {k c t : Nat} (hcalled : .called k t ∈ s.log)
    (hk : .accepted k c ∈ s'.log) : .accepted k c ∈ s.log := by
  rcases h.accepted k c hk with hold | ⟨hnot, -⟩
  · exact hold
  · exact absurd (mem_calls.mpr ⟨t, hcalled⟩) hnot

theorem FrameOk.grows {f : Frame} {rest : List Frame} (hf : FrameOk s v f rest)
    (h : Grows s s') : FrameOk s' v f rest := by
  cases f with
  | run c => exact ⟨h.log hf.1, h.guard c hf.2.1, hf.2.2⟩
  | task k =>
    refine ⟨h.log hf.1, ?_⟩
    intro c hc
    exact hf.2 c (h.accepted_of_called hf.1 hc)
  | direct k => exact h.log hf
  | dispatch k => trivial

theorem StackOk.grows {stack : List Frame} (hstack : StackOk s v stack) (h : Grows s s') :
    StackOk s' v stack := by
  induction stack with
  | nil => trivial
  | cons f rest ih => exact ⟨hstack.1.grows h, ih hstack.2⟩

theorem PcOk.rely {stack : List Frame} {pc : Pc} (hpc : PcOk s v stack pc)
    (h : Rely s s' v pc) : PcOk s' v stack pc := by
  cases pc with
  | forkLock c =>
    refine ⟨Nat.lt_of_lt_of_le hpc.1 h.nextContext, ?_⟩
    intro hc
    exact hpc.2 (h.forking c rfl hc)
  | forkStart c => exact ⟨h.log hpc.1, hpc.2⟩
  | runLoop c => exact FrameOk.grows (f := .run c) hpc h.toGrows
  | getResponse c => exact Left.grows hpc h.toGrows
  | finishLock c => exact ⟨h.pushes hpc.1, h.log hpc.2⟩
  | lock k orElse =>
    obtain ⟨hcalls, haccepted, -⟩ := h.waiting k rfl
    refine ⟨Nat.lt_of_lt_of_le hpc.1 h.nextTask, ?_, ?_⟩
    · intro hk
      exact hpc.2.1 (hcalls hk)
    · intro c hc
      exact hpc.2.2 c (haccepted c hc)
  | dispatching k c =>
    obtain ⟨hcalls, -, hqueue⟩ := h.waiting k rfl
    refine ⟨h.log hpc.1, ?_, ?_, ?_⟩
    · intro hk
      exact hpc.2.1 (hcalls hk)
    · intro d hd
      exact hpc.2.2.1 d (hqueue d hd)
    · intro hc
      exact hpc.2.2.2 (h.dispatching k c rfl hc)
  | _ => trivial

theorem ThreadOk.rely {th : Thread} (hth : ThreadOk s v th) (h : Rely s s' v th.pc) :
    ThreadOk s' v th where
  base c hc := h.pushes (hth.base c hc)
  stack := hth.stack.grows h.toGrows
  pc := hth.pc.rely h
  running k c hk hcalled := by
    have hold := h.called k hcalled
    exact (hth.running k c (h.accepted_of_called hold hk) hold).imp_left (h.log ·)
  served c hc := (hth.served c (h.pushed c hc)).imp_right (Left.grows · h.toGrows)

/-- The thread that moves: what it pushed or called it is in the middle of, and it drops a call only
when that has returned. -/
theorem ThreadOk.to {th th' : Thread} (hth : ThreadOk s v th) (h : Grows s s')
    (hbase : ∀ c, th'.base = .sending c → c ∈ pushes s'.log) (hstack : StackOk s' v th'.stack)
    (hpc : PcOk s' v th'.stack th'.pc)
    (hpushed : ∀ c, .pushed c v ∈ s'.log → .pushed c v ∈ s.log ∨ th'.Serves c)
    (hcalled : ∀ k c, .called k v ∈ s'.log → .called k v ∈ s.log ∨ .task k ∈ th'.stack ∨
      .accepted k c ∉ s'.log)
    (hrunning : ∀ k, .task k ∈ th.stack → .returned k ∈ s'.log ∨ .task k ∈ th'.stack)
    (hserves : ∀ c, th.Serves c → th'.Serves c ∨ Left s' c) : ThreadOk s' v th' where
  base := hbase
  stack := hstack
  pc := hpc
  running k c hk hk' := by
    rcases hcalled k c hk' with hold | htask | hnot
    · rcases hth.running k c (h.accepted_of_called hold hk) hold with hret | htask
      · exact .inl (h.log hret)
      · exact hrunning k htask
    · exact .inr htask
    · exact absurd hk hnot
  served c hc := by
    rcases hpushed c hc with hold | hserve
    · rcases hth.served c hold with hserve | hleft
      · exact hserves c hserve
      · exact .inr (hleft.grows h)
    · exact .inl hserve

end Rely

end MutualRecursionHelper
