import Wasivst.MutualRecursion.Threads

/-!
# What becomes of the functions passed to `handle()` and `maybe_handle()`

In every run no function is called twice, one that a context accepted is called by the thread that
waits in `fork()` for that context, before that `fork()` returns, and no function is left on a
context whose `run()` has returned. The stack holds the contexts that were pushed and that their
sending thread has not taken off yet, which it does some time after its function has returned.
-/

set_option autoImplicit false

namespace MutualRecursionHelper
open Transition

section Step
variable {s s' : State} {a : Action}

theorem Forks.of_log (hs : Forks s) (hpushes : pushes s'.log = pushes s.log)
    (herased : ∀ c, .erased c ∈ s'.log ↔ .erased c ∈ s.log)
    (hlog : s.log ⊆ s'.log) (hcontexts : s'.contexts = s.contexts)
    (hnext : s.nextContext ≤ s'.nextContext) : Forks s' where
  lt c hc := Nat.lt_of_lt_of_le (hs.lt c (hpushes ▸ hc)) hnext
  nodup := hpushes ▸ hs.nodup
  contexts := by rw [hcontexts, registered_congr hpushes herased, hs.contexts]
  erased c hc := by
    obtain ⟨hpushed, hret⟩ := hs.erased c ((herased c).mp hc)
    exact ⟨hpushes ▸ hpushed, hlog hret⟩

theorem forks_step (hs : Inv s) (h : StepTo s a s') : Forks s' := by
  have hf := hs.forks
  cases h with
  | @push t u c hpc _ =>
    obtain ⟨hlt, hnew⟩ := hs.forks_fresh (v := t) (c := c) (by rw [hpc]; rfl)
    have hc : .erased c ∉ s.log := fun hc => hnew (hf.erased c hc).1
    constructor
    · intro d hd
      rcases List.mem_append.mp hd with hold | hd
      · exact hf.lt d hold
      · exact List.mem_singleton.mp hd ▸ hlt
    · apply List.nodup_append.mpr ⟨hf.nodup, List.nodup_singleton c, ?_⟩
      rintro d hd _ hd' rfl
      exact hnew (List.mem_singleton.mp hd' ▸ hd)
    · rw [hf.contexts]
      exact (registered_push hc).symm
    · intro d hd
      obtain ⟨hpushed, hret⟩ := hf.erased d (by simpa using hd)
      exact ⟨List.mem_append_left _ hpushed, List.mem_cons_of_mem _ hret⟩
  | @erase t u c hpc _ =>
    have hat := hs.pcOk hpc
    refine ⟨hf.lt, hf.nodup, ?_, ?_⟩
    · rw [hf.contexts]
      exact (registered_erase hf.nodup c).symm
    · intro d hd
      rcases List.mem_cons.mp hd with heq | hold
      · obtain rfl := Event.erased.inj heq
        exact ⟨hat.1, List.mem_cons_of_mem _ hat.2⟩
      · exact ⟨(hf.erased d hold).1, List.mem_cons_of_mem _ (hf.erased d hold).2⟩
  | fork _ =>
    exact hf.of_log rfl (fun _ => Iff.rfl) (List.Subset.refl _) rfl (Nat.le_succ _)
  | _ =>
    apply hf.of_log
    · rfl
    · simp
    · simp
    · rfl
    · exact Nat.le_refl _

theorem Tasks.of_log (hs : Tasks s) (hcalls : calls s'.log = calls s.log)
    (haccepted : ∀ k c, .accepted k c ∈ s'.log ↔ .accepted k c ∈ s.log)
    (hran : ∀ k, .returned k ∈ s'.log → k ∈ calls s.log)
    (hqueue : s'.queue = s.queue) (hnext : s.nextTask ≤ s'.nextTask) : Tasks s' where
  calls_lt k hk := Nat.lt_of_lt_of_le (hs.calls_lt k (hcalls ▸ hk)) hnext
  accepted_lt k c hk := Nat.lt_of_lt_of_le (hs.accepted_lt k c ((haccepted k c).mp hk)) hnext
  once := hcalls ▸ hs.once
  unique k c d hc hd := hs.unique k c d ((haccepted k c).mp hc) ((haccepted k d).mp hd)
  ran k hk := by
    rw [hcalls]
    exact hran k hk
  queue_nodup := hqueue ▸ hs.queue_nodup
  queued c k hk := by
    rw [hqueue] at hk
    rw [hcalls, haccepted]
    exact hs.queued c k hk

/-- A function is called that was not called before and that no queue has any more. -/
theorem Tasks.of_call (hs : Tasks s) {k t : Nat} (hlog : s'.log = .called k t :: s.log)
    (hlt : k < s.nextTask) (hk : k ∉ calls s.log) (hsub : ∀ c, (s'.queue c).Sublist (s.queue c))
    (hqueue : ∀ c, k ∉ s'.queue c) (hnext : s'.nextTask = s.nextTask) : Tasks s' where
  calls_lt k' hk' := by
    rw [hlog] at hk'
    rcases List.mem_cons.mp hk' with rfl | hold
    · exact hnext ▸ hlt
    · exact hnext ▸ hs.calls_lt k' hold
  accepted_lt k' c hk' := hnext ▸ hs.accepted_lt k' c (by simpa [hlog] using hk')
  once := by
    rw [hlog]
    exact List.nodup_cons.mpr ⟨hk, hs.once⟩
  unique k' c d hc hd := hs.unique k' c d (by simpa [hlog] using hc) (by simpa [hlog] using hd)
  ran k' hk' := by
    rw [hlog] at hk' ⊢
    exact List.mem_cons_of_mem _ (hs.ran k' (by simpa using hk'))
  queue_nodup c := (hsub c).nodup (hs.queue_nodup c)
  queued c k' hk' := by
    obtain ⟨haccepted, hcalls⟩ := hs.queued c k' ((hsub c).subset hk')
    have hne : k' ≠ k := by
      rintro rfl
      exact hqueue c hk'
    rw [hlog]
    exact ⟨List.mem_cons_of_mem _ haccepted, by simp [calls, hne, hcalls]⟩

theorem Tasks.of_return (hs : Tasks s) {k : Nat} (hlog : s'.log = .returned k :: s.log)
    (hk : k ∈ calls s.log) (hqueue : s'.queue = s.queue) (hnext : s'.nextTask = s.nextTask) :
    Tasks s' := by
  apply hs.of_log
  · rw [hlog]
    rfl
  · simp [hlog]
  · intro k' hk'
    rw [hlog] at hk'
    rcases List.mem_cons.mp hk' with heq | hold
    · exact Event.returned.inj heq ▸ hk
    · exact hs.ran k' hold
  · exact hqueue
  · exact Nat.le_of_eq hnext.symm

/-- A context accepts a function for the first time. -/
theorem Tasks.of_accept (hs : Tasks s) {k c : Nat} (hlog : s'.log = .accepted k c :: s.log)
    (hqueue : s'.queue = s.queue) (hlt : k < s.nextTask) (hnot : ∀ d, .accepted k d ∉ s.log)
    (hnext : s'.nextTask = s.nextTask) : Tasks s' := by
  have hcalls : calls s'.log = calls s.log := by
    rw [hlog]
    rfl
  refine ⟨?_, ?_, hcalls ▸ hs.once, ?_, ?_, hqueue ▸ hs.queue_nodup, ?_⟩
  · rw [hcalls, hnext]
    exact hs.calls_lt
  · intro k' d hk'
    rw [hnext]
    rcases List.mem_cons.mp (hlog ▸ hk') with heq | hold
    · exact (Event.accepted.inj heq).1 ▸ hlt
    · exact hs.accepted_lt k' d hold
  · intro k' d d' hd hd'
    rcases List.mem_cons.mp (hlog ▸ hd) with heq | hold
    · obtain ⟨rfl, rfl⟩ := Event.accepted.inj heq
      rcases List.mem_cons.mp (hlog ▸ hd') with heq' | hold'
      · exact (Event.accepted.inj heq').2.symm
      · exact absurd hold' (hnot d')
    · rcases List.mem_cons.mp (hlog ▸ hd') with heq' | hold'
      · obtain ⟨rfl, rfl⟩ := Event.accepted.inj heq'
        exact absurd hold (hnot d)
      · exact hs.unique k' d d' hold hold'
  · intro k' hk'
    rw [hcalls]
    exact hs.ran k' (by simpa [hlog] using hk')
  · intro d k' hk'
    rw [hqueue] at hk'
    obtain ⟨haccepted, hnew⟩ := hs.queued d k' hk'
    rw [hcalls, hlog]
    exact ⟨List.mem_cons_of_mem _ haccepted, hnew⟩

/-- A function that was accepted is queued for the first time. -/
theorem Tasks.of_enqueue (hs : Tasks s) {k c : Nat} (hlog : s'.log = s.log)
    (hqueue : s'.queue = Function.update s.queue c (s.queue c ++ [k]))
    (haccepted : .accepted k c ∈ s.log) (hcalls : k ∉ calls s.log) (hnot : k ∉ s.queue c)
    (hnext : s'.nextTask = s.nextTask) : Tasks s' := by
  constructor
  case queue_nodup =>
    intro d
    rw [hqueue]
    by_cases hd : d = c
    · subst hd
      rw [Function.update_self]
      apply List.nodup_append.mpr ⟨hs.queue_nodup d, List.nodup_singleton k, ?_⟩
      rintro k' hk' _ hk'' rfl
      exact hnot (List.mem_singleton.mp hk'' ▸ hk')
    · rw [Function.update_of_ne hd]
      exact hs.queue_nodup d
  case queued =>
    intro d k' hk'
    rw [hqueue] at hk'
    rw [hlog]
    by_cases hd : d = c
    · subst hd
      rw [Function.update_self] at hk'
      rcases List.mem_append.mp hk' with hold | hnew
      · exact hs.queued d k' hold
      · obtain rfl := List.mem_singleton.mp hnew
        exact ⟨haccepted, hcalls⟩
    · rw [Function.update_of_ne hd] at hk'
      exact hs.queued d k' hk'
  all_goals rw [hlog]
  · exact hnext ▸ hs.calls_lt
  · exact hnext ▸ hs.accepted_lt
  · exact hs.once
  · exact hs.unique
  · exact hs.ran

theorem Inv.called_of_top (hs : Inv s) {t k : Nat} {rest : List Frame}
    (hstack : (s.threads t).stack = .task k :: rest ∨ (s.threads t).stack = .direct k :: rest) :
    k ∈ calls s.log := by
  have hok := (hs.threads t).stack
  rcases hstack with hstack | hstack
  · rw [hstack] at hok
    exact mem_calls.mpr ⟨t, hok.1.1⟩
  · rw [hstack] at hok
    exact mem_calls.mpr ⟨t, hok.1⟩

theorem tasks_step (hs : Inv s) (h : StepTo s a s') : Tasks s' := by
  have ht := hs.tasks
  cases h with
  | @runTask t u c k rest hpc hqueue =>
    have hk : k ∈ s.queue c := hqueue ▸ List.mem_cons_self
    obtain ⟨haccepted, hcalls⟩ := ht.queued c k hk
    have hnodup := ht.queue_nodup c
    rw [hqueue] at hnodup
    apply ht.of_call rfl (ht.accepted_lt k c haccepted) hcalls
    · intro d
      by_cases hd : d = c
      · subst hd
        simp [hqueue]
      · simp [Function.update_of_ne hd]
    · intro d
      by_cases hd : d = c
      · subst hd
        simpa using (List.nodup_cons.mp hnodup).1
      · simp only [Function.update_of_ne hd]
        intro hk'
        exact hd (ht.unique k d c (ht.queued d k hk').1 haccepted)
    · rfl
  | @callDirect t u k hpc _ _ | @dispatchInline t u k c hpc _ =>
    obtain ⟨hlt, hcalls, hqueue⟩ := hs.waits_fresh (v := t) (k := k) (by rw [hpc]; rfl)
    exact ht.of_call rfl hlt hcalls (fun _ => List.Sublist.refl _) hqueue rfl
  | @accept t u k c orElse hpc _ _ =>
    obtain ⟨hlt, -, hnot⟩ := hs.pcOk hpc
    exact ht.of_accept rfl rfl hlt hnot rfl
  | @enqueue t u k c hpc _ =>
    obtain ⟨haccepted, hcalls, hqueue, -⟩ := hs.pcOk hpc
    exact ht.of_enqueue rfl rfl haccepted hcalls (hqueue c) rfl
  | @taskReturn t k c rest _ hstack | @inlineReturn t k c rest _ hstack =>
    exact ht.of_return rfl (hs.called_of_top (.inl hstack)) rfl rfl
  | @directReturn t k rest _ hstack =>
    exact ht.of_return rfl (hs.called_of_top (.inr hstack)) rfl rfl
  | handle _ =>
    exact ht.of_log rfl (fun _ _ => Iff.rfl) ht.ran rfl (Nat.le_succ _)
  | _ =>
    apply ht.of_log
    · rfl
    · simp
    · simpa using ht.ran
    · rfl
    · exact Nat.le_refl _

theorem History.cons {l : List Event} {e : Event} (hl : History l)
    (haccepted : ∀ k c, e = .accepted k c →
      (registered l).getLast? = some c ∧ k ∉ calls l ∧ .erased c ∉ l)
    (hcalled : ∀ k t, e = .called k t → ∀ c, .accepted k c ∈ l → .pushed c t ∈ l)
    (hreturned : ∀ c, e = .forkReturned c →
      .erased c ∈ l ∧ ∀ k, .accepted k c ∈ l → .returned k ∈ l) : History (e :: l) where
  top k c m hm := by
    rcases List.suffix_cons_iff.mp hm with heq | hold
    · obtain ⟨he, rfl⟩ := List.cons.inj heq
      exact (haccepted k c he.symm).1
    · exact hl.top k c m hold
  owner k c t hk ht := by
    rcases List.mem_cons.mp hk with he | hk
    · rcases List.mem_cons.mp ht with he' | ht
      · cases he.trans he'.symm
      · exact absurd (mem_calls.mpr ⟨t, ht⟩) (haccepted k c he.symm).2.1
    · apply List.mem_cons_of_mem
      rcases List.mem_cons.mp ht with he' | ht
      · exact hcalled k t he'.symm c hk
      · exact hl.owner k c t hk ht
  before c k m hm hk := by
    rcases List.suffix_cons_iff.mp hm with heq | hold
    · obtain ⟨he, rfl⟩ := List.cons.inj heq
      rcases List.mem_cons.mp hk with he' | hk
      · cases he.trans he'.symm
      · exact (hreturned c he.symm).2 k hk
    · rcases List.mem_cons.mp hk with he | hk
      · exact absurd (hl.left c (hold.subset List.mem_cons_self)) (haccepted k c he.symm).2.2
      · exact hl.before c k m hold hk
  left c hc := by
    apply List.mem_cons_of_mem
    rcases List.mem_cons.mp hc with he | hc
    · exact (hreturned c he.symm).1
    · exact hl.left c hc

/-- A function is called on the thread that registered the context that accepted it. -/
theorem History.called {l : List Event} {k t : Nat} (hl : History l)
    (howner : ∀ c, .accepted k c ∈ l → .pushed c t ∈ l) : History (.called k t :: l) := by
  refine hl.cons nofun ?_ nofun
  intro k' t' he
  obtain ⟨rfl, rfl⟩ := Event.called.inj he
  exact howner

theorem history_step (hs : Inv s) (h : StepTo s a s') : History s'.log := by
  have hl := hs.history
  cases h with
  | @runTask t u c k rest hpc hqueue =>
    have hat := hs.pcOk hpc
    apply hl.called
    intro d hd
    have hk := (hs.tasks.queued c k (hqueue ▸ List.mem_cons_self)).1
    exact hs.tasks.unique k d c hd hk ▸ hat.1
  | @forkReturn t u c hpc _ =>
    have hat := hs.pcOk hpc
    refine hl.cons nofun nofun ?_
    intro d he
    exact Event.forkReturned.inj he ▸ hat
  | @accept t u k c orElse hpc _ htop =>
    have hat := hs.pcOk hpc
    refine hl.cons ?_ nofun nofun
    intro k' d he
    obtain ⟨rfl, rfl⟩ := Event.accepted.inj he
    rw [hs.forks.contexts] at htop
    exact ⟨htop, hat.2.1, (mem_registered.mp (List.mem_of_getLast? htop)).2⟩
  | @callDirect t u k hpc _ _ =>
    have hat := hs.pcOk hpc
    apply hl.called
    intro d hd
    exact absurd hd (hat.2.2 d)
  | @dispatchInline t u k c hpc hrun =>
    have hat := hs.pcOk hpc
    apply hl.called
    intro d hd
    exact hs.tasks.unique k d c hd hat.1 ▸ (hs.threads t).stack.owner hrun
  | taskReturn _ _ | inlineReturn _ _ | directReturn _ _ | fnReturn _ _ _ | push _ _ | erase _ _ =>
    exact hl.cons nofun nofun nofun
  | _ => exact hl

/-- A thread that does not leave `asio::dispatch()` leaves everything where it is kept. -/
theorem kept_move (hs : Inv s) {t : Nat} {th : Thread} (hl : calls s.log ⊆ calls s'.log)
    (haccepted : ∀ k c, .accepted k c ∈ s'.log → .accepted k c ∈ s.log ∨ th.pc = .dispatching k c)
    (hqueue : ∀ k c, k ∈ s.queue c → k ∈ s'.queue c ∨ k ∈ calls s'.log)
    (hthreads : s'.threads = Function.update s.threads t th)
    (hleave : ∀ k c, (s.threads t).pc = .dispatching k c → k ∈ s'.queue c ∨ k ∈ calls s'.log) :
    ∀ k c, .accepted k c ∈ s'.log → k ∉ calls s'.log →
      k ∈ s'.queue c ∨ ∃ v, (s'.threads v).pc = .dispatching k c := by
  intro k c hk hcalls
  rcases haccepted k c hk with hold | hnew
  · rcases hs.kept k c hold fun hc => hcalls (hl hc) with hq | ⟨v, hv⟩
    · exact .inl ((hqueue k c hq).resolve_right hcalls)
    · by_cases hvt : v = t
      · subst hvt
        exact .inl ((hleave k c hv).resolve_right hcalls)
      · exact .inr ⟨v, by rw [hthreads, Function.update_of_ne hvt, hv]⟩
  · exact .inr ⟨t, by rw [hthreads, Function.update_self, hnew]⟩

theorem kept_step (hs : Inv s) (h : StepTo s a s') (k c : Nat) (hk : .accepted k c ∈ s'.log)
    (hcalls : k ∉ calls s'.log) : k ∈ s'.queue c ∨ ∃ v, (s'.threads v).pc = .dispatching k c := by
  revert k c
  cases h with
  | @start t u c hpc hne habsent =>
    intro k d hk hcalls
    rcases hs.kept k d hk hcalls with hq | ⟨v, hv⟩
    · exact .inl hq
    · have hvu : v ≠ u := by
        rintro rfl
        cases habsent.symm.trans hv
      have hvt : v ≠ t := by
        rintro rfl
        cases hpc.symm.trans hv
      exact .inr ⟨v, by simpa [State.goto, State.set, hvu, hvt] using hv⟩
  | @runTask t u c k rest hpc hqueue =>
    refine kept_move hs (List.subset_cons_self _ _) (by simp) ?_ rfl (by simp [hpc])
    intro k' d hk'
    by_cases hd : d = c
    · subst hd
      rw [hqueue] at hk'
      rcases List.mem_cons.mp hk' with rfl | hrest
      · exact .inr List.mem_cons_self
      · exact .inl (by simpa using hrest)
    · exact .inl (by simpa [Function.update_of_ne hd] using hk')
  | @callDirect t u k hpc _ _ =>
    exact kept_move hs (List.subset_cons_self _ _) (by simp) (fun _ _ => .inl) rfl (by simp [hpc])
  | @dispatchInline t u k c hpc _ =>
    refine kept_move hs (List.subset_cons_self _ _) (by simp) (fun _ _ => .inl) rfl ?_
    intro k' d hat
    obtain ⟨rfl, rfl⟩ := Pc.dispatching.inj (hpc.symm.trans hat)
    exact .inr List.mem_cons_self
  | @accept t u k c orElse hpc _ _ =>
    refine kept_move hs (List.Subset.refl _) ?_ (fun _ _ => .inl) rfl (by simp [hpc])
    intro k' d hk'
    rcases List.mem_cons.mp hk' with heq | hold
    · obtain ⟨rfl, rfl⟩ := Event.accepted.inj heq
      exact .inr rfl
    · exact .inl hold
  | @enqueue t u k c hpc _ =>
    refine kept_move hs (List.Subset.refl _) (fun _ _ => .inl) ?_ rfl ?_
    · intro k' d hk'
      by_cases hd : d = c
      · subst hd
        exact .inl (by simp [hk'])
      · exact .inl (by simpa [Function.update_of_ne hd] using hk')
    · intro k' d hat
      obtain ⟨rfl, rfl⟩ := Pc.dispatching.inj (hpc.symm.trans hat)
      exact .inl (by simp)
  | begin hpc | fork hpc | handle hpc | taskReturn hpc _ | inlineReturn hpc _ | directReturn hpc _
  | fnReturn hpc _ _ | exit hpc _ _ | push hpc _ | runReturn hpc _ _ | forkReturn hpc _
  | erase hpc _ | decline hpc _ _ | release hpc | result hpc _ =>
    exact kept_move hs (List.Subset.refl _) (by simp) (fun _ _ => .inl) rfl (by simp [hpc])

/-- One thread moves to a place where it has nothing that another one has. -/
theorem Apart.move {f : Pc → Option Nat} (hs : Apart f s) {t : Nat} {th : Thread}
    (hthreads : s'.threads = Function.update s.threads t th)
    (hth : ∀ k, f th.pc = some k →
      f (s.threads t).pc = some k ∨ ∀ v, f (s.threads v).pc ≠ some k) : Apart f s' := by
  have hfree : ∀ v k, v ≠ t → f th.pc = some k → f (s.threads v).pc ≠ some k := by
    intro v k hv hk hvk
    rcases hth k hk with hold | hnew
    · exact hv (hs v t k hvk hold)
    · exact hnew v hvk
  intro v w k
  rw [hthreads]
  by_cases hv : v = t
  · subst hv
    by_cases hw : w = v
    · intro _ _
      exact hw.symm
    · rw [Function.update_self, Function.update_of_ne hw]
      intro hk hwk
      exact absurd hwk (hfree w k hw hk)
  · rw [Function.update_of_ne hv]
    by_cases hw : w = t
    · subst hw
      rw [Function.update_self]
      intro hvk hk
      exact absurd hvk (hfree v k hv hk)
    · rw [Function.update_of_ne hw]
      exact hs v w k

theorem waiting_step (hs : Inv s) (h : StepTo s a s') : Apart Pc.waits s' := by
  have hw := hs.waiting
  cases h with
  | handle _ =>
    refine hw.move rfl ?_
    intro k hk
    obtain rfl := Option.some.inj hk
    exact .inr fun v hv => Nat.lt_irrefl _ (hs.waits_fresh hv).1
  | accept hpc _ _ => exact hw.move rfl fun k hk => .inl (by rw [hpc]; exact hk)
  | @start t u c hpc hne habsent =>
    have hmid : Apart Pc.waits (s.goto t (.runLoop c)) := hw.move rfl nofun
    exact hmid.move rfl nofun
  | _ => exact hw.move rfl nofun

theorem forking_step (hs : Inv s) (h : StepTo s a s') : Apart Pc.forks s' := by
  have hf := hs.forking
  cases h with
  | fork _ =>
    refine hf.move rfl ?_
    intro c hc
    obtain rfl := Option.some.inj hc
    exact .inr fun v hv => Nat.lt_irrefl _ (hs.forks_fresh hv).1
  | @start t u c hpc hne habsent =>
    have hmid : Apart Pc.forks (s.goto t (.runLoop c)) := hf.move rfl nofun
    exact hmid.move rfl nofun
  | _ => exact hf.move rfl nofun

theorem inv_step (hl : LockInv s) (hs : Inv s) (h : StepTo s a s') : Inv s' where
  forks := forks_step hs h
  tasks := tasks_step hs h
  history := history_step hs h
  threads := threads_step hl hs h
  kept := kept_step hs h
  waiting := waiting_step hs h
  forking := forking_step hs h

end Step

theorem history_nil : History [] where
  top _ _ _ hm := by cases List.suffix_nil.mp hm
  owner _ _ _ hk := by cases hk
  before _ _ _ hm := by cases List.suffix_nil.mp hm
  left _ hc := by cases hc

theorem inv_init : Inv init where
  forks := ⟨nofun, List.nodup_nil, rfl, nofun⟩
  tasks := ⟨nofun, nofun, List.nodup_nil, nofun, nofun, fun _ => List.nodup_nil, nofun⟩
  history := history_nil
  threads _ := ⟨nofun, trivial, trivial, nofun, nofun⟩
  kept := nofun
  waiting := nofun
  forking := nofun

/-! ## Every run -/

/-- The contexts whose function has not returned. -/
def unfinished (l : List Event) : List Nat := (pushes l).filter fun c => .fnReturned c ∉ l

/-- `stack` tells from the log which contexts the helper is to have, the active one last. -/
structure CallsKept (stack : List Event → List Nat) (s : State) : Prop where
  once : (calls s.log).Nodup
  accepted : ∀ k c l, (.accepted k c :: l) <:+ s.log → (stack l).getLast? = some c
  owner : ∀ k c t, .accepted k c ∈ s.log → .called k t ∈ s.log → .pushed c t ∈ s.log
  before : ∀ c k l, (.forkReturned c :: l) <:+ s.log → .accepted k c ∈ s.log → .returned k ∈ l
  ran : ∀ k, .returned k ∈ s.log → k ∈ calls s.log
  forks : (pushes s.log).Nodup
  contexts : s.contexts = stack s.log
  kept : ∀ k c, .accepted k c ∈ s.log → k ∉ calls s.log →
    (k ∈ s.queue c ∨ ∃ t, (s.threads t).pc = .dispatching k c) ∧
      ∃ t, .pushed c t ∈ s.log ∧ (s.threads t).Serves c

theorem inv_run {s : State} {as : List Action} (h : run step init as = some s) : Inv s := by
  have hkeep : ∀ s a s', LockInv s ∧ Inv s → step s a = some s' → LockInv s' ∧ Inv s' := by
    intro s a s' hs hstep
    exact ⟨lockInv_step s a s' hs.1 hstep, inv_step hs.1 hs.2 (step_to hstep)⟩
  exact (run_always hkeep ⟨lockInv_init, inv_init⟩ h).2

/-- A context that has accepted a function was pushed. -/
theorem History.pushed_of_accepted {l : List Event} (hl : History l) {k c : Nat}
    (hk : .accepted k c ∈ l) : ∃ t, .pushed c t ∈ l := by
  obtain ⟨later, earlier, rfl⟩ := List.append_of_mem hk
  have hsuffix : (.accepted k c :: earlier) <:+ later ++ .accepted k c :: earlier :=
    List.suffix_append _ _
  have hc := List.mem_of_getLast? (hl.top k c earlier hsuffix)
  obtain ⟨t, ht⟩ := mem_pushes.mp (mem_registered.mp hc).1
  exact ⟨t, hsuffix.subset (List.mem_cons_of_mem _ ht)⟩

theorem Inv.callsKept {s : State} (hs : Inv s) : CallsKept registered s where
  once := hs.tasks.once
  accepted := hs.history.top
  owner := hs.history.owner
  before := hs.history.before
  ran := hs.tasks.ran
  forks := hs.forks.nodup
  contexts := hs.forks.contexts
  kept k c hk hcalls := by
    refine ⟨hs.kept k c hk hcalls, ?_⟩
    obtain ⟨t, ht⟩ := hs.history.pushed_of_accepted hk
    rcases (hs.threads t).served c ht with hserves | hleft
    · exact ⟨t, ht, hserves⟩
    · exact absurd (hs.tasks.ran k (hleft.2 k hk)) hcalls

/-- In every run, with the contexts that were pushed and not taken off as the active ones: a
function is called at most once, by the thread that waits for the context that accepted it, and
has returned when that `fork()` returns. A context is taken off after its function has returned. -/
theorem calls_kept {s : State} {as : List Action} (h : run step init as = some s) :
    CallsKept registered s ∧ ∀ c, .erased c ∈ s.log → .fnReturned c ∈ s.log :=
  ⟨(inv_run h).callsKept, fun c hc => ((inv_run h).forks.erased c hc).2⟩

theorem calls_kept_handled : ∃ s, run step init handledFork = some s ∧
    .forkReturned 0 ∈ s.log ∧ .accepted 0 0 ∈ s.log ∧
      CallsKept registered s ∧ ∀ c, .erased c ∈ s.log → .fnReturned c ∈ s.log := by
  have hend : (run step init handledFork).map State.log = some [.forkReturned 0, .erased 0,
      .fnReturned 0, .returned 0, .called 0 0, .accepted 0 0, .pushed 0 0] := by decide
  obtain ⟨s, hs, hlog⟩ := Option.map_eq_some_iff.mp hend
  exact ⟨s, hs, by simp [hlog], by simp [hlog], calls_kept hs⟩

/-- The function of the second `fork()` has returned but its thread has not taken the mutex yet when
the function of the first one calls `handle()`. -/
def racingHandle : List Action :=
  [.begin 0, .fork 0, .next 0 0, .next 0 1, .begin 2, .fork 2, .next 2 2, .next 2 3, .ret 3,
    .handle 1 true, .next 1 1]

theorem racing_accepted_by_finished :
    ¬ ∀ (as : List Action) (s : State), run step init as = some s → CallsKept unfinished s := by
  intro h
  have hend : (run step init racingHandle).map State.log =
      some [.accepted 0 1, .fnReturned 1, .pushed 1 2, .pushed 0 0] := by decide
  obtain ⟨s, hs, hlog⟩ := Option.map_eq_some_iff.mp hend
  have haccepted := (h racingHandle s hs).accepted
  rw [hlog] at haccepted
  exact absurd (haccepted 0 1 _ List.suffix_rfl) (by decide)

end MutualRecursionHelper
