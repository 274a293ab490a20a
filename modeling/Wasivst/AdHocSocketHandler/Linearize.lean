import Wasivst.AdHocSocketHandler.Send
import Wasivst.Lib.Remote

/-!
# The order in which calls take effect

The callback of `receive_multi` works on one object, at some instant between taking a request and
answering it; requests on secondary sockets are served by threads of their own. `log` has the
calls in the order of these instants, each with the value of its response. The log is a
sequential history of the object, and calls that do not overlap stand in it in their order.
-/

set_option autoImplicit false

namespace Wasivst.AdHocSocketHandler.Linearize
open Transition Send

variable {ι τ α ρ : Type}

structure State (ι τ ρ : Type) where
  sends : Send.State ι
  object : τ
  log : List (ι × ρ)

inductive Action (ι : Type) where
  | send (a : Send.Action ι)
  /-- The callback that has taken the request of `i` does what it asks for. -/
  | effect (i : ι)

def State.order (s : State ι τ ρ) : List ι := s.log.map Prod.fst

/-- A callback has the request of `i` and has not answered it. -/
def Handling (s : Send.State ι) (i : ι) : Prop :=
  s.primary.server = .handling i ∨ (s.calls i).socket.server = .handling i

def Server.request : Server ι → Option ι
  | .handling r => some r
  | _ => none

/-- The request that is answered. -/
def answered (s : Send.State ι) : Send.Action ι → Option ι
  | .answerPrimary => Server.request s.primary.server
  | .answerSecondary i => Server.request (s.calls i).socket.server
  | _ => none

variable (callback : τ → α → τ × ρ) (request : ι → α)

def ask (object : τ) (a : α) : τ × List ρ := ((callback object a).1, [(callback object a).2])

/-- What the callback returns when it gets `as` one after the other. -/
def results (object : τ) (as : List α) : List ρ := Remote.outputs (ask callback) object as

def start (listens : Bool) (object : τ) : State ι τ ρ := ⟨Send.start listens, object, []⟩

variable [DecidableEq ι]

instance (s : Send.State ι) (i : ι) : Decidable (Handling s i) :=
  inferInstanceAs (Decidable (_ ∨ _))

/-- A response is written when its value is there. -/
def step (s : State ι τ ρ) : Action ι → Option (State ι τ ρ)
  | .send a =>
    if ∀ r ∈ answered s.sends a, r ∈ s.order then
      (Send.step s.sends a).map fun sends => { s with sends := sends }
    else none
  | .effect i =>
    if Handling s.sends i ∧ i ∉ s.order then
      some { s with
        object := (callback s.object (request i)).1
        log := s.log ++ [(i, (callback s.object (request i)).2)] }
    else none

/-! ## Who has a request -/

variable {s t : Send.State ι} {i : ι}

@[simp] theorem setCall_server (s : Send.State ι) (i j : ι) (c : Call ι) :
    ((s.setCall i c).calls j).socket.server =
      if j = i then c.socket.server else (s.calls j).socket.server := by
  by_cases h : j = i <;> simp [State.setCall, Function.update, h]

@[simp] theorem goto_server (s : Send.State ι) (i j : ι) (pc : Pc ι) :
    ((s.goto i pc).calls j).socket.server = (s.calls j).socket.server := by
  rcases eq_or_ne j i with rfl | h
  · simp [Send.State.goto]
  · simp [Send.State.goto, h]

/-- A step takes no request unless a callback has it then, and a callback keeps its request until
it answers. -/
structure Follows (s t : Send.State ι) (answer : Option ι) : Prop where
  grows : s.handled <+: t.handled
  taken : ∀ i ∈ t.handled, i ∈ s.handled ∨ Handling t i
  kept : ∀ i, Handling s i → Handling t i ∨ answer = some i

omit [DecidableEq ι] in
theorem Follows.of_unmoved {o : Option ι} (hhandled : t.handled = s.handled)
    (hprimary : ∀ i, s.primary.server = .handling i → t.primary.server = .handling i)
    (hsockets : ∀ j i, (s.calls j).socket.server = .handling i →
      (t.calls j).socket.server = .handling i) : Follows s t o := by
  refine ⟨?_, ?_, ?_⟩
  · rw [hhandled]
  · intro i hi
    exact .inl (hhandled ▸ hi)
  · intro i hi
    rcases hi with hi | hi
    · exact .inl (.inl (hprimary i hi))
    · exact .inl (.inr (hsockets i i hi))

theorem follows_takePrimary (h : Send.step s .takePrimary = some t) : Follows s t none := by
  simp only [Send.step] at h
  split at h
  · rename_i r rest hserver hup
    cases h
    refine ⟨List.prefix_append _ _, ?_, ?_⟩
    · intro i hi
      rcases List.mem_append.mp hi with hi | hi
      · exact .inl hi
      · exact .inr (.inl (List.mem_singleton.mp hi ▸ rfl))
    · intro i hi
      rcases hi with hi | hi
      · cases hserver.symm.trans hi
      · exact .inl (.inr hi)
  · cases h

theorem follows_takeSecondary (hs : Send.Inv s) (h : Send.step s (.takeSecondary i) = some t) :
    Follows s t none := by
  simp only [Send.step] at h
  split at h
  · rename_i r rest hserver hup
    cases h
    have hlink := served_of_server hs (i := i) (by simp [hserver])
    have hbusy : ¬ (s.calls i).socket.Quiet := by
      intro hq
      cases hup.symm.trans hq.up
    obtain ⟨_, hcarries⟩ := reading_of_busy hs hlink (by simp [hserver]) hbusy
    obtain ⟨rfl, _, _, _⟩ := hcarries.of_up hup
    refine ⟨List.prefix_append _ _, ?_, ?_⟩
    · intro j hj
      rcases List.mem_append.mp hj with hj | hj
      · exact .inl hj
      · refine .inr (.inr ?_)
        obtain rfl := List.mem_singleton.mp hj
        simp [State.setCall]
    · intro j hj
      rcases hj with hj | hj
      · exact .inl (.inl hj)
      · refine .inl (.inr ?_)
        have hne : j ≠ r := by
          rintro rfl
          cases hserver.symm.trans hj
        simpa [State.setCall, Function.update_of_ne hne] using hj
  · cases h

theorem follows_answerPrimary (h : Send.step s .answerPrimary = some t) :
    Follows s t (answered s .answerPrimary) := by
  simp only [Send.step] at h
  split at h
  · rename_i r hserver
    cases h
    refine ⟨List.prefix_refl _, fun i hi => .inl hi, ?_⟩
    intro i hi
    rcases hi with hi | hi
    · exact .inr (by rw [answered, hi]; rfl)
    · exact .inl (.inr hi)
  · cases h

theorem follows_answerSecondary (h : Send.step s (.answerSecondary i) = some t) :
    Follows s t (answered s (.answerSecondary i)) := by
  simp only [Send.step] at h
  split at h
  · rename_i r hserver
    cases h
    refine ⟨List.prefix_refl _, fun i hi => .inl hi, ?_⟩
    intro j hj
    rcases hj with hj | hj
    · exact .inl (.inl hj)
    · rcases eq_or_ne j i with rfl | hne
      · exact .inr (by rw [answered, hj]; rfl)
      · exact .inl (.inr (by simpa [hne] using hj))
  · cases h

theorem follows_listen (hs : Send.Inv s) (h : Send.step s .listen = some t) : Follows s t none := by
  simp only [Send.step] at h
  split at h
  · rename_i hphase
    cases h
    have habsent : s.primary.server = .absent := hs.serving.mpr (by simp [hphase])
    refine Follows.of_unmoved rfl ?_ (fun _ _ hi => hi)
    intro i hi
    cases habsent.symm.trans hi
  · cases h

theorem follows_acceptSecondary (hs : Send.Inv s) (h : Send.step s (.acceptSecondary i) = some t) :
    Follows s t none := by
  simp only [Send.step] at h
  split at h
  · rename_i hlink
    cases h
    have habsent : (s.calls i).socket.server = .absent := (hs.calls i).served.mpr (by simp [hlink])
    refine Follows.of_unmoved rfl (fun _ hi => hi) ?_
    intro j k hk
    have hne : j ≠ i := by
      rintro rfl
      cases habsent.symm.trans hk
    simpa [hne] using hk
  · cases h

omit [DecidableEq ι] in
theorem dropped_server (c : Call ι) : c.dropped.socket = c.socket := by
  unfold Call.dropped
  split <;> rfl

theorem follows_step (hs : Send.Inv s) {a : Send.Action ι} (h : Send.step s a = some t) :
    Follows s t (answered s a) := by
  cases a with
  | takePrimary => exact follows_takePrimary h
  | takeSecondary i => exact follows_takeSecondary hs h
  | answerPrimary => exact follows_answerPrimary h
  | answerSecondary i => exact follows_answerSecondary h
  | listen => exact follows_listen hs h
  | acceptSecondary i => exact follows_acceptSecondary hs h
  | reset =>
    simp only [Send.step] at h
    split at h <;> cases h
    exact Follows.of_unmoved rfl (fun _ hi => hi) fun j i hi => by rw [dropped_server]; exact hi
  | _ =>
    simp only [Send.step] at h
    repeat' split at h
    all_goals cases h
    all_goals
      refine Follows.of_unmoved rfl (fun _ hi => hi) ?_
      intro j k hk
      simp only [Channel.send, setCall_server, goto_server]
      grind

/-- A callback has a request only while its call waits for the response. -/
theorem reading_of_handling (hs : Send.Inv s) (h : Handling s i) :
    ((s.calls i).pc = .primaryRead ∨ (s.calls i).pc = .secondaryRead) ∧ s.handled.count i = 1 := by
  rcases h with h | h
  · have hbusy : ¬ s.primary.Quiet := by
      intro hq
      rcases hq.server with hs | hs <;> cases h.symm.trans hs
    obtain ⟨j, _, hread, _, hcarries⟩ := owner_of_busy hs hbusy
    obtain ⟨rfl, _, _, hn⟩ := hcarries.of_handling (.inl rfl) h
    exact ⟨.inl hread, hn⟩
  · have hlink := served_of_server hs (i := i) (by simp [h])
    have hbusy : ¬ (s.calls i).socket.Quiet := by
      intro hq
      rcases hq.server with hs | hs <;> cases h.symm.trans hs
    obtain ⟨hread, hcarries⟩ := reading_of_busy hs hlink (by simp [h]) hbusy
    obtain ⟨_, _, _, hn⟩ := hcarries.of_handling (.inr rfl) h
    exact ⟨.inr hread, hn⟩

/-! ## The log -/

structure Inv (object : τ) (s : State ι τ ρ) : Prop where
  sends : Send.Inv s.sends
  nodup : s.order.Nodup
  handled : ∀ i ∈ s.order, i ∈ s.sends.handled
  effects : ∀ i ∈ s.sends.handled, Handling s.sends i ∨ i ∈ s.order
  current : s.object = Remote.after (ask callback) object (s.order.map request)
  values : s.log.map Prod.snd = results callback object (s.order.map request)

variable {callback request} {object : τ}

theorem inv_start (listens : Bool) :
    Inv callback request object (start listens object : State ι τ ρ) := by
  refine ⟨Send.inv_start listens, List.nodup_nil, ?_, ?_, rfl, rfl⟩
  · intro i hi
    cases hi
  · intro i hi
    cases hi

theorem inv_send {s t : State ι τ ρ} {a : Send.Action ι} (hs : Inv callback request object s)
    (h : step callback request s (.send a) = some t) : Inv callback request object t := by
  simp only [step] at h
  split at h
  · rename_i hanswer
    obtain ⟨u, hu, rfl⟩ := Option.map_eq_some_iff.mp h
    obtain ⟨hgrows, htaken, hkept⟩ := follows_step hs.sends hu
    refine ⟨Send.inv_step _ a _ hs.sends hu, hs.nodup, ?_, ?_, hs.current, hs.values⟩
    · intro i hi
      exact hgrows.subset (hs.handled i hi)
    · intro i hi
      rcases htaken i hi with hold | hnew
      · rcases hs.effects i hold with hbusy | hdone
        · rcases hkept i hbusy with hbusy | hout
          · exact .inl hbusy
          · exact .inr (hanswer i hout)
        · exact .inr hdone
      · exact .inl hnew
  · cases h

theorem inv_effect {s t : State ι τ ρ} {i : ι} (hs : Inv callback request object s)
    (h : step callback request s (.effect i) = some t) : Inv callback request object t := by
  simp only [step] at h
  split at h
  · rename_i hnew
    obtain ⟨hbusy, hfresh⟩ := hnew
    cases h
    have horder : ∀ v : ρ, (s.log ++ [(i, v)]).map Prod.fst = s.order ++ [i] := by
      intro v
      exact List.map_append
    refine ⟨hs.sends, ?_, ?_, ?_, ?_, ?_⟩
    · rw [State.order, horder, List.nodup_append]
      refine ⟨hs.nodup, List.nodup_singleton i, ?_⟩
      intro x hx y hy hxy
      obtain rfl := List.mem_singleton.mp hy
      exact hfresh (hxy ▸ hx)
    · intro j hj
      rw [State.order, horder] at hj
      rcases List.mem_append.mp hj with hj | hj
      · exact hs.handled j hj
      · obtain rfl := List.mem_singleton.mp hj
        apply List.count_pos_iff.mp
        rw [(reading_of_handling hs.sends hbusy).2]
        exact Nat.one_pos
    · intro j hj
      rw [State.order, horder]
      rcases hs.effects j hj with hj | hj
      · exact .inl hj
      · exact .inr (List.mem_append_left _ hj)
    · rw [State.order, horder, List.map_append, List.map_singleton, Remote.after_snoc, ← hs.current]
      rfl
    · rw [State.order, horder, List.map_append, List.map_append, List.map_singleton,
        List.map_singleton, results, Remote.outputs_snoc, hs.values, ← hs.current]
      rfl
  · cases h

theorem inv_step (s : State ι τ ρ) (a : Action ι) (t : State ι τ ρ)
    (hs : Inv callback request object s) (h : step callback request s a = some t) :
    Inv callback request object t := by
  cases a with
  | send a => exact inv_send hs h
  | effect i => exact inv_effect hs h

theorem inv_run {listens : Bool} {as : List (Action ι)} {t : State ι τ ρ}
    (h : run (step callback request) (start listens object) as = some t) :
    Inv callback request object t :=
  run_always inv_step (inv_start listens) h

theorem Inv.in_order {s : State ι τ ρ} (hs : Inv callback request object s) {i r : ι}
    (hpc : (s.sends.calls i).pc = .returned r) : r = i ∧ i ∈ s.order := by
  have hhere := (hs.sends.calls i).here
  rw [Local, hpc] at hhere
  obtain ⟨_, hn, hr⟩ := hhere
  have hmem : i ∈ s.sends.handled := by
    apply List.count_pos_iff.mp
    rw [hn]
    exact Nat.one_pos
  refine ⟨hr, (hs.effects i hmem).resolve_left ?_⟩
  intro hbusy
  rcases (reading_of_handling hs.sends hbusy).1 with h | h <;> cases h.symm.trans hpc

theorem Inv.not_in_order {s : State ι τ ρ} (hs : Inv callback request object s) {i : ι}
    (hpc : (s.sends.calls i).pc = .start) : i ∉ s.order := by
  have hhere := (hs.sends.calls i).here
  rw [Local, hpc] at hhere
  intro hmem
  have hpos := List.count_pos_iff.mpr (hs.handled i hmem)
  omega

theorem log_grows (s : State ι τ ρ) (a : Action ι) (t : State ι τ ρ)
    (h : step callback request s a = some t) : s.log <+: t.log := by
  cases a with
  | send a =>
    simp only [step] at h
    split at h
    · obtain ⟨u, _, rfl⟩ := Option.map_eq_some_iff.mp h
      exact List.prefix_refl _
    · cases h
  | effect i =>
    simp only [step] at h
    split at h
    · cases h
      exact List.prefix_append _ _
    · cases h

theorem log_grows_run {s t : State ι τ ρ} {as : List (Action ι)}
    (h : run (step callback request) s as = some t) : s.log <+: t.log :=
  run_always (fun u a v hu hstep => List.IsPrefix.trans hu (log_grows u a v hstep))
    (List.prefix_refl s.log) h

/-- Every interleaving of `send` calls looks as if the callback had worked off the requests one
after the other, each at most once: a call returns what the callback gave it in that order, and a
call that had returned before another one began comes before it. -/
theorem linearizable {listens : Bool} {as : List (Action ι)} {t : State ι τ ρ}
    (h : run (step callback request) (start listens object) as = some t) :
    t.log.map Prod.snd = results callback object (t.order.map request) ∧ t.order.Nodup ∧
      (∀ i r, (t.sends.calls i).pc = .returned r → r = i ∧ i ∈ t.order) ∧
      ∀ bs cs u, as = bs ++ cs → run (step callback request) (start listens object) bs = some u →
        u.log <+: t.log ∧ ∀ i j r, (u.sends.calls i).pc = .returned r →
          (u.sends.calls j).pc = .start → i ∈ u.order ∧ j ∉ u.order := by
  have ht := inv_run h
  refine ⟨ht.values, ht.nodup, fun i r hpc => ht.in_order hpc, ?_⟩
  rintro bs cs u rfl hu
  have hinv := inv_run hu
  obtain ⟨v, hv, hrest⟩ := run_append_eq_some.mp h
  obtain rfl := Option.some.inj (hu.symm.trans hv)
  refine ⟨log_grows_run hrest, ?_⟩
  intro i j r hreturned hstart
  exact ⟨(hinv.in_order hreturned).2, hinv.not_in_order hstart⟩

/-- Two calls count; the second one is made on a connection of its own, and overtakes the first. -/
def overtaking : List (Action Bool) :=
  [.send .listen, .send (.tryLock true), .send (.write true), .send .takePrimary,
    .send (.tryLockFails false), .send (.connect false), .send (.write false),
    .send (.acceptSecondary false), .send (.takeSecondary false), .effect false, .effect true,
    .send (.answerSecondary false), .send (.read false), .send .answerPrimary, .send (.read true),
    .send (.setFlag true), .send (.unlock true)]

def counting (n : Nat) (_ : Unit) : Nat × Nat := (n + 1, n)

theorem overtaking_linearizable : ∃ t : State Bool Nat Nat,
    run (step counting fun _ => ()) (start false 0) overtaking = some t ∧
      t.log.map Prod.snd = results counting 0 (t.order.map fun _ => ()) ∧ t.order.Nodup ∧
      (∀ i r, (t.sends.calls i).pc = .returned r → r = i ∧ i ∈ t.order) ∧
      ∀ bs cs u, overtaking = bs ++ cs →
        run (step counting fun _ => ()) (start false 0) bs = some u →
        u.log <+: t.log ∧ ∀ i j r, (u.sends.calls i).pc = .returned r →
          (u.sends.calls j).pc = .start → i ∈ u.order ∧ j ∉ u.order := by
  obtain ⟨t, ht⟩ : ∃ t, run (step counting fun _ => ()) (start false 0) overtaking = some t :=
    Option.isSome_iff_exists.mp (by decide +kernel)
  exact ⟨t, ht, linearizable ht⟩

end Wasivst.AdHocSocketHandler.Linearize
