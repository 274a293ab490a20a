import Wasivst.MutualRecursion.Invariant

/-!
# What a step of `MutualRecursionHelper` does for the threads

The threads that do not move keep what they rely on, since a step is never about a function or a
context that another thread still has for itself. `run()` of a context returns when the context is
off the stack and every function that it accepted has returned.
-/

set_option autoImplicit false

namespace MutualRecursionHelper

namespace State

@[simp] theorem set_log (s : State) (t : Nat) (th : Thread) : (s.set t th).log = s.log := rfl

@[simp] theorem goto_log (s : State) (t : Nat) (pc : Pc) : (s.goto t pc).log = s.log := rfl

@[simp] theorem record_log (s : State) (e : Event) : (s.record e).log = e :: s.log := rfl

end State

section Step
variable {s s' : State} {a : Action}

/-- The thread that takes the step. -/
@[simp] def Action.thread : Action → Nat
  | begin t | fork t | handle t _ | ret t | next t _ => t

theorem Grows.of_log (hlog : s.log ⊆ s'.log) (hcontext : s.nextContext ≤ s'.nextContext)
    (htask : s.nextTask ≤ s'.nextTask) (hguard : ∀ c, s.guard c = true → s'.guard c = true)
    (haccepted : ∀ k c, .accepted k c ∈ s'.log → .accepted k c ∈ s.log) : Grows s s' where
  log := hlog
  nextContext := hcontext
  nextTask := htask
  guard c hc := hc.imp (hguard c) (hlog ·)
  accepted k c hk := .inl (haccepted k c hk)

theorem step_grows (hs : Inv s) (h : StepTo s a s') : Grows s s' := by
  cases h with
  | fork _ =>
    exact .of_log (List.Subset.refl _) (Nat.le_succ _) (Nat.le_refl _) (fun _ => id) fun _ _ => id
  | handle _ =>
    exact .of_log (List.Subset.refl _) (Nat.le_refl _) (Nat.le_succ _) (fun _ => id) fun _ _ => id
  | start _ _ _ =>
    refine .of_log (List.Subset.refl _) (Nat.le_refl _) (Nat.le_refl _) ?_ fun _ _ => id
    intro d hd
    simp [Function.update_apply, hd]
  | @erase t u c _ _ =>
    refine ⟨List.subset_cons_self _ _, Nat.le_refl _, Nat.le_refl _, ?_, ?_⟩
    · intro d hd
      by_cases hdc : d = c
      · exact .inr (by simp [hdc])
      · simpa [Function.update_of_ne hdc, hdc] using hd
    · intro k d hk
      exact .inl (by simpa using hk)
  | @accept t u k c orElse hpc _ htop =>
    have hk := hs.pcOk hpc
    have hc : c ∈ registered s.log := hs.forks.contexts ▸ List.mem_of_getLast? htop
    refine ⟨List.subset_cons_self _ _, Nat.le_refl _, Nat.le_refl _, ?_, ?_⟩
    · intro d hd
      exact hd.imp_right (List.mem_cons_of_mem _)
    · intro k' d hk'
      rcases List.mem_cons.mp hk' with heq | hold
      · obtain ⟨rfl, rfl⟩ := Event.accepted.inj heq
        exact .inr ⟨hk.2.1, (mem_registered.mp hc).2⟩
      · exact .inl hold
  | _ =>
    refine .of_log ?_ (Nat.le_refl _) (Nat.le_refl _) (fun _ => id) ?_
    · simp
    · simp

theorem Inv.waits_fresh (hs : Inv s) {v k : Nat} (hw : (s.threads v).pc.waits = some k) :
    k < s.nextTask ∧ k ∉ calls s.log ∧ ∀ c, k ∉ s.queue c := by
  cases hv : (s.threads v).pc with
  | lock k' orElse =>
    rw [hv] at hw
    obtain rfl := Option.some.inj hw
    obtain ⟨hlt, hcalls, haccepted⟩ := hs.pcOk hv
    refine ⟨hlt, hcalls, ?_⟩
    intro c hc
    exact haccepted c (hs.tasks.queued c k' hc).1
  | dispatching k' c =>
    rw [hv] at hw
    obtain rfl := Option.some.inj hw
    obtain ⟨haccepted, hcalls, hqueue, -⟩ := hs.pcOk hv
    exact ⟨hs.tasks.accepted_lt k' c haccepted, hcalls, hqueue⟩
  | _ =>
    rw [hv] at hw
    cases hw

theorem Inv.forks_fresh (hs : Inv s) {v c : Nat} (hf : (s.threads v).pc.forks = some c) :
    c < s.nextContext ∧ c ∉ pushes s.log := by
  cases hv : (s.threads v).pc with
  | forkLock c' =>
    rw [hv] at hf
    obtain rfl := Option.some.inj hf
    exact hs.pcOk hv
  | _ =>
    rw [hv] at hf
    cases hf

theorem not_dispatching (hl : LockInv s) (hmutex : s.mutex = none) (v k c : Nat) :
    (s.threads v).pc ≠ .dispatching k c := by
  intro hv
  have hholds := hl.holds v
  simp [Thread.holds, hv, Pc.inCritical, hmutex] at hholds

theorem Rely.of_quiet (h : Grows s s') {v : Nat} {pc : Pc} (hlog : s'.log = s.log)
    (hqueue : ∀ k, pc.waits = some k → ∀ c, k ∈ s'.queue c → k ∈ s.queue c) : Rely s s' v pc where
  toGrows := h
  pushed _ := by rw [hlog]; exact id
  called _ := by rw [hlog]; exact id
  forking _ _ := by rw [hlog]; exact id
  waiting k hk := by rw [hlog]; exact ⟨id, fun _ => id, hqueue k hk⟩
  dispatching _ _ _ := by rw [hlog]; exact id

theorem Rely.of_event (h : Grows s s') {v : Nat} {pc : Pc} {e : Event} (hlog : s'.log = e :: s.log)
    (hqueue : ∀ c, s'.queue c ⊆ s.queue c)
    (hpushed : ∀ c t, e = .pushed c t → v ≠ t ∧ pc.forks ≠ some c)
    (hcalled : ∀ k t, e = .called k t → v ≠ t ∧ pc.waits ≠ some k)
    (haccepted : ∀ k c, e = .accepted k c → pc.waits ≠ some k)
    (herased : ∀ c, e = .erased c → ∀ k, pc ≠ .dispatching k c) : Rely s s' v pc where
  toGrows := h
  pushed c hc := by
    rcases List.mem_cons.mp (hlog ▸ hc) with heq | hold
    · exact absurd rfl (hpushed c v heq.symm).1
    · exact hold
  called k hk := by
    rcases List.mem_cons.mp (hlog ▸ hk) with heq | hold
    · exact absurd rfl (hcalled k v heq.symm).1
    · exact hold
  forking c hf hc := by
    obtain ⟨t, ht⟩ := mem_pushes.mp hc
    rcases List.mem_cons.mp (hlog ▸ ht) with heq | hold
    · exact absurd hf (hpushed c t heq.symm).2
    · exact mem_pushes.mpr ⟨t, hold⟩
  waiting k hw := by
    refine ⟨?_, ?_, fun c hc => hqueue c hc⟩
    · intro hk
      obtain ⟨t, ht⟩ := mem_calls.mp hk
      rcases List.mem_cons.mp (hlog ▸ ht) with heq | hold
      · exact absurd hw (hcalled k t heq.symm).2
      · exact mem_calls.mpr ⟨t, hold⟩
    · intro c hc
      rcases List.mem_cons.mp (hlog ▸ hc) with heq | hold
      · exact absurd hw (haccepted k c heq.symm)
      · exact hold
  dispatching k c hpc hc := by
    rcases List.mem_cons.mp (hlog ▸ hc) with heq | hold
    · exact absurd hpc (herased c heq.symm k)
    · exact hold

/-- What a step does is not about a function that another thread still has for itself, nor about
its own context. -/
theorem step_rely (hl : LockInv s) (hs : Inv s) (h : StepTo s a s') {v : Nat} (hv : v ≠ a.thread) :
    Rely s s' v (s.threads v).pc := by
  have hgrows := step_grows hs h
  have hwaits : ∀ t k, v ≠ t → (s.threads t).pc.waits = some k →
      (s.threads v).pc.waits ≠ some k := by
    intro t k hvt ht hw
    exact hvt (hs.waiting v t k hw ht)
  have hsame : ∀ c, s.queue c ⊆ s.queue c := fun c => List.Subset.refl _
  cases h with
  | @push t u c hpc _ =>
    refine .of_event hgrows rfl hsame ?_ nofun nofun nofun
    intro d w heq
    obtain ⟨rfl, rfl⟩ := Event.pushed.inj heq
    refine ⟨hv, ?_⟩
    intro hf
    exact hv (hs.forking v t c hf (by rw [hpc]; rfl))
  | @runTask t u c k rest hpc hqueue =>
    have hk : k ∈ s.queue c := hqueue ▸ List.mem_cons_self
    refine .of_event hgrows rfl ?_ nofun ?_ nofun nofun
    · intro d
      by_cases hd : d = c
      · subst hd
        simp [hqueue]
      · simp [Function.update_of_ne hd]
    · intro k' w heq
      obtain ⟨rfl, rfl⟩ := Event.called.inj heq
      refine ⟨hv, ?_⟩
      intro hw
      exact (hs.waits_fresh hw).2.2 c hk
  | @callDirect t u k hpc _ _ | @dispatchInline t u k _ hpc _ =>
    refine .of_event hgrows rfl hsame nofun ?_ nofun nofun
    intro k' w heq
    obtain ⟨rfl, rfl⟩ := Event.called.inj heq
    exact ⟨hv, hwaits t k hv (by rw [hpc]; rfl)⟩
  | @accept t u k c _ hpc _ _ =>
    refine .of_event hgrows rfl hsame nofun nofun ?_ nofun
    intro k' d heq
    obtain ⟨rfl, rfl⟩ := Event.accepted.inj heq
    exact hwaits t k hv (by rw [hpc]; rfl)
  | @enqueue t u k c hpc _ =>
    refine .of_quiet hgrows rfl ?_
    intro k' hw d hd
    by_cases hdc : d = c
    · subst hdc
      have hne : k' ≠ k := by
        rintro rfl
        exact hwaits t k' hv (by rw [hpc]; rfl) hw
      simpa [hne] using hd
    · simpa [Function.update_of_ne hdc] using hd
  | @erase t u c _ hmutex =>
    refine .of_event hgrows rfl hsame nofun nofun nofun ?_
    intro d _ k
    exact not_dispatching hl hmutex v k d
  | taskReturn _ _ | inlineReturn _ _ | directReturn _ _ | fnReturn _ _ _ | forkReturn _ _ =>
    exact .of_event hgrows rfl hsame nofun nofun nofun nofun
  | _ => exact .of_quiet hgrows rfl fun _ _ _ => id

/-- The thread goes on at another place with the same calls to return to. -/
theorem ThreadOk.goto {v : Nat} {th : Thread} {old pc : Pc} (hth : ThreadOk s v th)
    (h : Grows s s') (hold : th.pc = old)
    (hpushed : ∀ c, .pushed c v ∈ s'.log → .pushed c v ∈ s.log ∨ pc = .forkStart c)
    (hcalled : ∀ k, .called k v ∈ s'.log → .called k v ∈ s.log) (hpc : PcOk s' v th.stack pc)
    (hserves : ∀ c, old = .forkStart c ∨ old = .runLoop c → pc = .runLoop c ∨ Left s' c) :
    ThreadOk s' v { th with pc := pc } := by
  subst hold
  apply hth.to h
  · intro c hc
    exact h.pushes (hth.base c hc)
  · exact hth.stack.grows h
  · exact hpc
  · intro c hc
    exact (hpushed c hc).imp_right .inl
  · intro k _ hk
    exact .inl (hcalled k hk)
  · intro k hk
    exact .inr hk
  · rintro c (hc | hc | hc)
    · exact (hserves c (.inl hc)).imp_left fun hrun => .inr (.inl hrun)
    · exact (hserves c (.inr hc)).imp_left fun hrun => .inr (.inl hrun)
    · exact .inl (.inr (.inr hc))

/-- The thread calls a function, which no context accepted or which it has on its stack. -/
theorem ThreadOk.call {v k : Nat} {th : Thread} {old : Pc} (hth : ThreadOk s v th)
    (pushed : List Frame) (h : Grows s s') (hlog : s'.log = .called k v :: s.log)
    (hold : th.pc = old) (hstack : StackOk s' v (pushed ++ th.stack))
    (hk : .task k ∈ pushed ∨ ∀ c, .accepted k c ∉ s.log)
    (hserves : ∀ c, old = .forkStart c ∨ old = .runLoop c → .run c ∈ pushed) :
    ThreadOk s' v ⟨th.base, pushed ++ th.stack, .user⟩ := by
  subst hold
  apply hth.to h
  · intro c hc
    exact h.pushes (hth.base c hc)
  · exact hstack
  · trivial
  · intro c hc
    exact .inl (by simpa [hlog] using hc)
  · intro k' c hk'
    rcases List.mem_cons.mp (hlog ▸ hk') with heq | hold
    · obtain ⟨rfl, -⟩ := Event.called.inj heq
      refine .inr (hk.imp (List.mem_append_left _) fun hnot => ?_)
      simpa [hlog] using hnot c
    · exact .inl hold
  · intro k' hk'
    exact .inr (List.mem_append_right _ hk')
  · rintro c (hc | hc | hc)
    · exact .inl (.inr (.inr (List.mem_append_left _ (hserves c (.inl hc)))))
    · exact .inl (.inr (.inr (List.mem_append_left _ (hserves c (.inr hc)))))
    · exact .inl (.inr (.inr (List.mem_append_right _ hc)))

theorem StackOk.suffix {v : Nat} {stack rest : List Frame} (hstack : StackOk s v stack)
    (hrest : rest <:+ stack) : StackOk s v rest := by
  induction stack with
  | nil => exact List.suffix_nil.mp hrest ▸ hstack
  | cons f below ih =>
    rcases List.suffix_cons_iff.mp hrest with rfl | hbelow
    · exact hstack
    · exact ih hstack.2 hbelow

theorem StackOk.frame {v : Nat} {stack rest : List Frame} {f : Frame} (hstack : StackOk s v stack)
    (hrest : (f :: rest) <:+ stack) : FrameOk s v f rest := (hstack.suffix hrest).1

/-- A thread owns every context that it runs. -/
theorem StackOk.owner {v c : Nat} {stack : List Frame} (hstack : StackOk s v stack)
    (hc : .run c ∈ stack) : .pushed c v ∈ s.log := by
  induction stack with
  | nil => cases hc
  | cons f rest ih =>
    rcases List.mem_cons.mp hc with rfl | hc
    · exact hstack.1.1
    · exact ih hstack.2 hc

/-- A function is called inside `run()` of the context that accepted it. -/
theorem StackOk.inside {v k c : Nat} {stack : List Frame} (hstack : StackOk s v stack)
    (hk : .task k ∈ stack) (haccepted : .accepted k c ∈ s.log) : .run c ∈ stack := by
  induction stack with
  | nil => cases hk
  | cons f rest ih =>
    rcases List.mem_cons.mp hk with rfl | hk
    · exact List.mem_cons_of_mem _ (hstack.1.2 c haccepted)
    · exact List.mem_cons_of_mem _ (ih hstack.2 hk)

/-- When `run()` returns, every function that the context accepted has returned: one that was not
called is still queued, and one that was called is called by this thread, inside this `run()`. -/
theorem left_of_runReturn (hs : Inv s) {t c : Nat} (hpc : (s.threads t).pc = .runLoop c)
    (hqueue : s.queue c = []) (hguard : s.guard c = false) : Left s c := by
  have hth := hs.threads t
  obtain ⟨howner, hopen, hnot⟩ := hs.pcOk hpc
  have herased : .erased c ∈ s.log := by
    rcases hopen with hopen | herased
    · rw [hguard] at hopen
      cases hopen
    · exact herased
  refine ⟨herased, ?_⟩
  intro k hk
  have hcalled : k ∈ calls s.log := by
    by_contra hcalls
    rcases hs.kept k c hk hcalls with hqueued | ⟨v, hv⟩
    · rw [hqueue] at hqueued
      cases hqueued
    · exact (hs.pcOk hv).2.2.2 herased
  obtain ⟨u, hu⟩ := mem_calls.mp hcalled
  obtain rfl := pushed_unique hs.forks.nodup howner (hs.history.owner k c u hk hu)
  rcases hth.running k c hk hu with hret | htask
  · exact hret
  · exact absurd (hth.stack.inside htask hk) hnot

/-- A thread that was not there before. -/
theorem ThreadOk.fresh {v : Nat} {th : Thread} {base : Base} (hth : ThreadOk s v th)
    (h : Rely s s' v th.pc) (habsent : th.pc = .absent) (hempty : th.stack = [])
    (hbase : ∀ c, base = .sending c → c ∈ pushes s'.log) : ThreadOk s' v ⟨base, [], .user⟩ := by
  apply hth.to h.toGrows
  · exact hbase
  · trivial
  · trivial
  · intro c hc
    exact .inl (h.pushed c hc)
  · intro k _ hk
    exact .inl (h.called k hk)
  · intro k hk
    rw [hempty] at hk
    cases hk
  · rintro c (hc | hc | hc)
    · rw [habsent] at hc
      cases hc
    · rw [habsent] at hc
      cases hc
    · rw [hempty] at hc
      cases hc

/-- The thread returns from the calls `popped`, which leaves it at `pc`. -/
theorem ThreadOk.pop {v : Nat} {th : Thread} {rest : List Frame} {pc : Pc}
    (hth : ThreadOk s v th) (popped : List Frame) (h : Grows s s')
    (hstack : th.stack = popped ++ rest) (huser : th.pc = .user) (hpc : PcOk s' v rest pc)
    (hpushed : ∀ c, .pushed c v ∈ s'.log → .pushed c v ∈ s.log)
    (hcalled : ∀ k, .called k v ∈ s'.log → .called k v ∈ s.log)
    (hreturned : ∀ k, .task k ∈ popped → .returned k ∈ s'.log)
    (hserves : ∀ c, .run c ∈ popped → pc = .runLoop c) : ThreadOk s' v ⟨th.base, rest, pc⟩ := by
  apply hth.to h
  · intro c hc
    exact h.pushes (hth.base c hc)
  · exact (hth.stack.suffix (hstack ▸ List.suffix_append popped rest)).grows h
  · exact hpc
  · intro c hc
    exact .inl (hpushed c hc)
  · intro k _ hk
    exact .inl (hcalled k hk)
  · intro k hk
    rw [hstack] at hk
    exact (List.mem_append.mp hk).imp_left (hreturned k)
  · rintro c (hc | hc | hc)
    · rw [huser] at hc
      cases hc
    · rw [huser] at hc
      cases hc
    · rw [hstack] at hc
      exact .inl (.inr ((List.mem_append.mp hc).imp_left (hserves c)))

theorem threads_move (hs : Inv s) {t : Nat} {th : Thread}
    (hrely : ∀ v, v ≠ t → Rely s s' v (s.threads v).pc)
    (hthreads : s'.threads = Function.update s.threads t th) (hth : ThreadOk s' t th) :
    ∀ v, ThreadOk s' v (s'.threads v) := by
  intro v
  rw [hthreads]
  by_cases hv : v = t
  · subst hv
    rwa [Function.update_self]
  · rw [Function.update_of_ne hv]
    exact (hs.threads v).rely (hrely v hv)

theorem threads_step (hl : LockInv s) (hs : Inv s) (h : StepTo s a s') :
    ∀ v, ThreadOk s' v (s'.threads v) := by
  have hgrows := step_grows hs h
  have hrely : ∀ v, v ≠ a.thread → Rely s s' v (s.threads v).pc := fun v => step_rely hl hs h
  have hth := hs.threads a.thread
  cases h with
  | @begin t hpc =>
    apply threads_move hs hrely rfl
    apply hth.fresh (.of_quiet hgrows rfl fun _ _ _ => id) hpc
    · exact hl.outside t (by rw [hpc]; rfl)
    · exact nofun
  | @fork t hpc =>
    apply threads_move hs hrely rfl
    refine hth.goto hgrows hpc (fun _ => .inl) (fun _ => id) ?_ (by simp)
    refine ⟨Nat.lt_succ_self _, ?_⟩
    intro hc
    exact Nat.lt_irrefl _ (hs.forks.lt _ hc)
  | @handle t orElse hpc =>
    apply threads_move hs hrely rfl
    refine hth.goto hgrows hpc (fun _ => .inl) (fun _ => id) ?_ (by simp)
    refine ⟨Nat.lt_succ_self _, ?_, ?_⟩
    · intro hk
      exact Nat.lt_irrefl _ (hs.tasks.calls_lt _ hk)
    · intro c hk
      exact Nat.lt_irrefl _ (hs.tasks.accepted_lt _ c hk)
  | @taskReturn t k c rest hpc hstack =>
    apply threads_move hs hrely rfl
    refine hth.pop [.task k, .run c] hgrows hstack hpc ?_ (by simp) (by simp) (by simp)
      (by simp)
    exact (hth.stack.frame (hstack ▸ List.suffix_cons _ _)).grows hgrows
  | @inlineReturn t k k' rest hpc hstack =>
    apply threads_move hs hrely rfl
    exact hth.pop [.task k, .dispatch k'] hgrows hstack hpc trivial (by simp) (by simp)
      (by simp) (by simp)
  | @directReturn t k rest hpc hstack =>
    apply threads_move hs hrely rfl
    exact hth.pop [.direct k] hgrows hstack hpc trivial (by simp) (by simp) (by simp)
      (by simp)
  | @fnReturn t c hpc hstack hbase =>
    apply threads_move hs hrely rfl
    refine hth.goto hgrows hpc (by simp) (by simp) ?_ (by simp)
    exact ⟨hgrows.pushes (hth.base c hbase), List.mem_cons_self⟩
  | @push t u c hpc _ =>
    apply threads_move hs hrely rfl
    have hat := hs.pcOk hpc
    refine hth.goto hgrows hpc ?_ (by simp) ?_ (by simp)
    · intro d hd
      rcases List.mem_cons.mp hd with heq | hold
      · exact .inr (by rw [(Event.pushed.inj heq).1])
      · exact .inl hold
    · refine ⟨List.mem_cons_self, ?_⟩
      intro hrun
      exact hat.2 (mem_pushes.mpr ⟨t, hth.stack.owner hrun⟩)
  | @start t u c hpc hne habsent =>
    have hat := hs.pcOk hpc
    have hrun := @ThreadOk.goto _ _ _ _ _ (.runLoop c) hth hgrows hpc (fun _ => .inl) (fun _ => id)
      ⟨hat.1, .inl (Function.update_self _ _ _), hat.2⟩ (by simp)
    intro v
    by_cases hv : v = u
    · subst hv
      simp only [State.set, Function.update_self]
      apply (hs.threads v).fresh (hrely v hne) habsent
      · exact hl.outside v (by rw [habsent]; rfl)
      · intro d hd
        obtain rfl := Base.sending.inj hd
        exact mem_pushes.mpr ⟨t, hat.1⟩
    · simp only [State.set, Function.update_of_ne hv]
      by_cases hvt : v = t
      · subst hvt
        simpa [State.goto, State.set] using hrun
      · simpa [State.goto, State.set, Function.update_of_ne hvt] using
          (hs.threads v).rely (hrely v hvt)
  | @runTask t u c k rest hpc hqueue =>
    apply threads_move hs hrely rfl
    have hat := hs.pcOk hpc
    have hk := (hs.tasks.queued c k (hqueue ▸ List.mem_cons_self)).1
    refine hth.call [.task k, .run c] hgrows rfl hpc ?_ (.inl List.mem_cons_self) (by simp)
    refine ⟨⟨List.mem_cons_self, ?_⟩, FrameOk.grows (f := .run c) hat hgrows,
      hth.stack.grows hgrows⟩
    intro d hd
    rw [hs.tasks.unique k d c (by simpa using hd) hk]
    exact List.mem_cons_self
  | @runReturn t u c hpc hqueue hguard =>
    apply threads_move hs hrely rfl
    have hleft := (left_of_runReturn hs hpc hqueue hguard).grows hgrows
    refine hth.goto hgrows hpc (fun _ => .inl) (fun _ => id) hleft ?_
    rintro d (heq | heq)
    · cases heq
    · exact .inr (Pc.runLoop.inj heq ▸ hleft)
  | @forkReturn t u c hpc _ | @erase t u c hpc _ =>
    apply threads_move hs hrely rfl
    exact hth.goto hgrows hpc (by simp) (by simp) trivial (by simp)
  | @accept t u k c orElse hpc _ htop =>
    apply threads_move hs hrely rfl
    have hat := hs.pcOk hpc
    refine hth.goto hgrows hpc (by simp) (by simp) ?_ (by simp)
    refine ⟨List.mem_cons_self, by simpa [calls] using hat.2.1, ?_, ?_⟩
    · intro d hd
      exact hat.2.2 d (hs.tasks.queued d k hd).1
    · have hc : c ∈ registered s.log := hs.forks.contexts ▸ List.mem_of_getLast? htop
      simpa using (mem_registered.mp hc).2
  | @callDirect t u k hpc _ _ =>
    apply threads_move hs hrely rfl
    have hat := hs.pcOk hpc
    exact hth.call [.direct k] hgrows rfl hpc ⟨List.mem_cons_self, hth.stack.grows hgrows⟩
      (.inr hat.2.2) (by simp)
  | @dispatchInline t u k c hpc hrun =>
    apply threads_move hs hrely rfl
    have hat := hs.pcOk hpc
    refine hth.call [.task k, .dispatch k] hgrows rfl hpc ?_ (.inl List.mem_cons_self) (by simp)
    refine ⟨⟨List.mem_cons_self, ?_⟩, trivial, hth.stack.grows hgrows⟩
    intro d hd
    rw [hs.tasks.unique k d c (by simpa using hd) hat.1]
    exact List.mem_cons_of_mem _ hrun
  | @exit t hpc _ _ | @decline t u k hpc _ _ | @enqueue t u k c hpc _ | @release t u k hpc
  | @result t u k hpc _ =>
    apply threads_move hs hrely rfl
    exact hth.goto hgrows hpc (fun _ => .inl) (fun _ => id) trivial (by simp)

end Step

end MutualRecursionHelper
