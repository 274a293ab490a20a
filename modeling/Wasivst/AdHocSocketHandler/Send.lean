import Mathlib.Algebra.Order.BigOperators.Group.Finset
import Mathlib.Data.Fintype.BigOperators
import Wasivst.Lib.Transition

/-!
# `AdHocSocketHandler::send` during start-up

Any number of `send` calls on one handler run against the other side's `connect` and the start
of its `receive_multi`. A connection to the endpoint is queued while an acceptor is bound and
refused otherwise; what is queued at the first acceptor is reset together with it. The own side's
`connect` has returned. Requests and responses carry the name of the call they belong to.
-/

set_option autoImplicit false

namespace Wasivst.AdHocSocketHandler.Send
open Transition

variable {ι : Type}

/-- A callback of `receive_multi` on one socket. -/
inductive Server (ι : Type) where
  | absent
  | reading
  | handling (request : ι)
  | finished
  deriving DecidableEq

structure Channel (ι : Type) where
  up : List ι
  server : Server ι
  down : List ι
  deriving DecidableEq

/-- A secondary connection: in the queue of the first or second acceptor, reset, or served. -/
inductive Link where
  | none
  | first
  | reset
  | second
  | served
  deriving DecidableEq

/-- Where a `send` call is; `waiting` is the `lock_guard` of the fallback. -/
inductive Pc (ι : Type) where
  | start
  | primaryWrite
  | primaryRead
  | primaryDone (response : ι)
  | unlocking (response : ι)
  | connecting
  | secondaryWrite
  | secondaryRead
  | caught
  | waiting
  | returned (response : ι)
  | thrown
  deriving DecidableEq

structure Call (ι : Type) where
  pc : Pc ι
  link : Link
  socket : Channel ι
  deriving DecidableEq

/-- The other side, from `connect` to the loop of `receive_multi`. -/
inductive Phase where
  | accepting
  | accepted
  | connected
  | listening
  deriving DecidableEq

/-- `handled` lists the requests that a callback has taken. -/
structure State (ι : Type) where
  calls : ι → Call ι
  primary : Channel ι
  writeMutex : Option ι
  sentFirstEvent : Bool
  phase : Phase
  handled : List ι

inductive Action (ι : Type) where
  | tryLock (i : ι)
  | tryLockFails (i : ι)
  | write (i : ι)
  | read (i : ι)
  | setFlag (i : ι)
  | unlock (i : ι)
  | connect (i : ι)
  | fail (i : ι)
  | test (i : ι)
  | lock (i : ι)
  | accept
  | reset
  | listen
  | acceptSecondary (i : ι)
  | takePrimary
  | answerPrimary
  | takeSecondary (i : ι)
  | answerSecondary (i : ι)

def Channel.closed : Channel ι := ⟨[], .absent, []⟩

def Channel.send (c : Channel ι) (i : ι) : Channel ι := { c with up := c.up ++ [i] }

/-- The queue a new connection gets into. -/
def Phase.queue : Phase → Option Link
  | accepting => some .first
  | accepted => some .first
  | connected => none
  | listening => some .second

/-- If the other side listens first, its `connect` has still to accept the primary socket. -/
def start (listens : Bool) : State ι where
  calls _ := ⟨.start, .none, Channel.closed⟩
  primary := Channel.closed
  writeMutex := none
  sentFirstEvent := false
  phase := if listens then .accepting else .connected
  handled := []

def Call.dropped (c : Call ι) : Call ι :=
  match c.link with
  | .first => { c with link := .reset }
  | _ => c

variable [DecidableEq ι]

def State.setCall (s : State ι) (i : ι) (c : Call ι) : State ι :=
  { s with calls := Function.update s.calls i c }

def State.goto (s : State ι) (i : ι) (pc : Pc ι) : State ι :=
  s.setCall i { s.calls i with pc := pc }

/-- `try_lock` may fail on a free mutex. -/
def step (s : State ι) : Action ι → Option (State ι)
  | .tryLock i =>
    match (s.calls i).pc, s.writeMutex with
    | .start, none => some { s.goto i .primaryWrite with writeMutex := some i }
    | _, _ => none
  | .tryLockFails i =>
    match (s.calls i).pc with
    | .start => some (s.goto i .connecting)
    | _ => none
  | .write i =>
    match (s.calls i).pc, (s.calls i).link with
    | .primaryWrite, _ => some { s.goto i .primaryRead with primary := s.primary.send i }
    | .secondaryWrite, .reset => none
    | .secondaryWrite, _ => some (s.setCall i { s.calls i with
        pc := .secondaryRead
        socket := (s.calls i).socket.send i })
    | _, _ => none
  | .read i =>
    match (s.calls i).pc, s.primary.down, (s.calls i).socket.down with
    | .primaryRead, r :: rest, _ =>
      some { s.goto i (.primaryDone r) with primary := { s.primary with down := rest } }
    | .secondaryRead, _, r :: rest => some (s.setCall i { s.calls i with
        pc := .returned r
        socket := { (s.calls i).socket with down := rest } })
    | _, _, _ => none
  | .setFlag i =>
    match (s.calls i).pc with
    | .primaryDone r => some { s.goto i (.unlocking r) with sentFirstEvent := true }
    | _ => none
  | .unlock i =>
    match (s.calls i).pc with
    | .unlocking r => some { s.goto i (.returned r) with writeMutex := none }
    | _ => none
  | .connect i =>
    match (s.calls i).pc, s.phase.queue with
    | .connecting, some link =>
      some (s.setCall i { s.calls i with pc := .secondaryWrite, link := link })
    | .connecting, none => some (s.goto i .caught)
    | _, _ => none
  | .fail i =>
    match (s.calls i).pc, (s.calls i).link with
    | .secondaryWrite, .reset => some (s.goto i .caught)
    | .secondaryRead, .reset => some (s.goto i .caught)
    | _, _ => none
  | .test i =>
    match (s.calls i).pc with
    | .caught => some (s.goto i (if s.sentFirstEvent then .thrown else .waiting))
    | _ => none
  | .lock i =>
    match (s.calls i).pc, s.writeMutex with
    | .waiting, none => some { s.goto i .primaryWrite with writeMutex := some i }
    | _, _ => none
  | .accept =>
    match s.phase with
    | .accepting => some { s with phase := .accepted }
    | _ => none
  | .reset =>
    match s.phase with
    | .accepted => some { s with phase := .connected, calls := fun i => (s.calls i).dropped }
    | _ => none
  | .listen =>
    match s.phase with
    | .connected =>
      some { s with phase := .listening, primary := { s.primary with server := .reading } }
    | _ => none
  | .acceptSecondary i =>
    match (s.calls i).link with
    | .second => some (s.setCall i { s.calls i with
        link := .served
        socket := { (s.calls i).socket with server := .reading } })
    | _ => none
  | .takePrimary =>
    match s.primary.server, s.primary.up with
    | .reading, r :: rest => some { s with
        primary := { s.primary with server := .handling r, up := rest }
        handled := s.handled ++ [r] }
    | _, _ => none
  | .answerPrimary =>
    match s.primary.server with
    | .handling r => some { s with
        primary := { s.primary with server := .reading, down := s.primary.down ++ [r] } }
    | _ => none
  | .takeSecondary i =>
    match (s.calls i).socket.server, (s.calls i).socket.up with
    | .reading, r :: rest => some { s.setCall i { s.calls i with
          socket := { (s.calls i).socket with server := .handling r, up := rest } } with
        handled := s.handled ++ [r] }
    | _, _ => none
  | .answerSecondary i =>
    match (s.calls i).socket.server with
    | .handling r => some (s.setCall i { s.calls i with
        socket := { (s.calls i).socket with
          server := .finished
          down := (s.calls i).socket.down ++ [r] } })
    | _ => none

/-! ## What holds of a call -/

namespace Pc

/-- The call owns `write_mutex_`. -/
def Holds : Pc ι → Prop
  | primaryWrite => True
  | primaryRead => True
  | primaryDone _ => True
  | unlocking _ => True
  | _ => False

end Pc

structure Channel.Quiet (c : Channel ι) : Prop where
  up : c.up = []
  down : c.down = []
  server : c.server = .absent ∨ c.server = .reading

/-- The request of `i` or its response is under way, and a callback has taken it `n` times; when
it has answered it is in state `last`. -/
inductive Channel.Carries (c : Channel ι) (last : Server ι) (i : ι) : Nat → Prop where
  | sent (up : c.up = [i]) (down : c.down = [])
      (server : c.server = .absent ∨ c.server = .reading) : Carries c last i 0
  | taken (up : c.up = []) (down : c.down = []) (server : c.server = .handling i) :
      Carries c last i 1
  | answered (up : c.up = []) (down : c.down = [i]) (server : c.server = last) : Carries c last i 1

/-- No request gets through on the secondary connection any more. -/
def Call.Over (c : Call ι) : Prop :=
  c.link = .none ∨ c.link = .reset ∨ c.socket.server = .finished

/-- The request of call `i` has been taken `n` times, and what it waits for is on its way. -/
def Local (i : ι) (c : Call ι) (primary : Channel ι) (n : Nat) : Prop :=
  match c.pc with
  | .start => c.link = .none ∧ c.socket.up = [] ∧ c.socket.down = [] ∧ n = 0
  | .connecting => c.link = .none ∧ c.socket.up = [] ∧ c.socket.down = [] ∧ n = 0
  | .primaryWrite => c.Over ∧ primary.Quiet ∧ n = 0
  | .primaryRead => c.Over ∧ primary.Carries .reading i n
  | .primaryDone r => c.Over ∧ primary.Quiet ∧ n = 1 ∧ r = i
  | .unlocking r => c.Over ∧ primary.Quiet ∧ n = 1 ∧ r = i
  | .secondaryWrite => c.link ≠ .none ∧ c.socket.Quiet ∧ n = 0
  | .secondaryRead => c.link ≠ .none ∧ c.socket.Carries .finished i n
  | .caught => c.Over ∧ n = 0
  | .waiting => c.Over ∧ n = 0
  | .thrown => c.Over ∧ n = 0
  | .returned r => c.Over ∧ n = 1 ∧ r = i

structure CallInv (s : State ι) (i : ι) (c : Call ι) : Prop where
  holder : c.pc.Holds ↔ s.writeMutex = some i
  served : c.socket.server = .absent ↔ c.link ≠ .served
  first : c.link = .first → s.phase = .accepting ∨ s.phase = .accepted
  here : Local i c s.primary (s.handled.count i)

structure Inv (s : State ι) : Prop where
  idle : s.writeMutex = none → s.primary.Quiet
  serving : s.primary.server = .absent ↔ s.phase ≠ .listening
  calls : ∀ i, CallInv s i (s.calls i)

theorem inv_start (listens : Bool) : Inv (start listens : State ι) := by
  refine ⟨fun _ => ⟨rfl, rfl, .inl rfl⟩, ?_, fun i => ⟨?_, ?_, ?_, rfl, rfl, rfl, rfl⟩⟩
  · cases listens <;> simp [start, Channel.closed]
  · simp [start, Pc.Holds]
  · simp [start, Channel.closed]
  · intro h
    simp [start] at h

omit [DecidableEq ι] in
theorem Local.of_not_holds {i : ι} {c : Call ι} {p q : Channel ι} {n : Nat} (h : Local i c p n)
    (hc : ¬ c.pc.Holds) : Local i c q n := by
  unfold Local at *
  cases hpc : c.pc <;> rw [hpc] at h hc <;> first | exact h | exact absurd trivial hc

/-- A step of call `i`, or of the callback that works for it. -/
theorem Inv.update {s t : State ι} (hs : Inv s) {i : ι} {c : Call ι}
    (hcalls : t.calls = Function.update s.calls i c) (hphase : t.phase = s.phase)
    (hmutex : ∀ j, j ≠ i → (t.writeMutex = some j ↔ s.writeMutex = some j))
    (hprimary : t.primary = s.primary ∨ s.writeMutex = some i)
    (hcount : ∀ j, j ≠ i → t.handled.count j = s.handled.count j)
    (hidle : t.writeMutex = none → t.primary.Quiet)
    (hserving : t.primary.server = .absent ↔ s.primary.server = .absent) (hcall : CallInv t i c) :
    Inv t := by
  refine ⟨hidle, hserving.trans (hphase ▸ hs.serving), ?_⟩
  intro j
  rw [hcalls]
  rcases eq_or_ne j i with rfl | hj
  · rw [Function.update_self]
    exact hcall
  · rw [Function.update_of_ne hj]
    obtain ⟨hholder, hserved, hfirst, hhere⟩ := hs.calls j
    refine ⟨hholder.trans (hmutex j hj).symm, hserved, hphase ▸ hfirst, ?_⟩
    rw [hcount j hj]
    rcases hprimary with hp | hi
    · rw [hp]
      exact hhere
    · apply hhere.of_not_holds
      intro hh
      exact hj (Option.some.inj ((hholder.mp hh).symm.trans hi))

theorem Inv.setCall {s : State ι} (hs : Inv s) {i : ι} {c : Call ι}
    (hholds : c.pc.Holds ↔ (s.calls i).pc.Holds)
    (hserved : c.socket.server = .absent ↔ c.link ≠ .served)
    (hfirst : c.link = .first → s.phase = .accepting ∨ s.phase = .accepted)
    (hhere : Local i c s.primary (s.handled.count i)) : Inv (s.setCall i c) :=
  hs.update rfl rfl (fun _ _ => Iff.rfl) (.inl rfl) (fun _ _ => rfl) hs.idle Iff.rfl
    ⟨hholds.trans (hs.calls i).holder, hserved, hfirst, hhere⟩

theorem Inv.goto {s : State ι} (hs : Inv s) {i : ι} {pc : Pc ι}
    (hholds : pc.Holds ↔ (s.calls i).pc.Holds)
    (hhere : Local i { s.calls i with pc := pc } s.primary (s.handled.count i)) :
    Inv (s.goto i pc) :=
  hs.setCall hholds (hs.calls i).served (hs.calls i).first hhere

/-- A step of the owner of the mutex, or of the callback that works for it. -/
theorem Inv.owner {s t : State ι} (hs : Inv s) {i : ι} {pc : Pc ι}
    (hmine : s.writeMutex = some i)
    (hcalls : t.calls = Function.update s.calls i { s.calls i with pc := pc })
    (hphase : t.phase = s.phase) (hmutex : t.writeMutex = s.writeMutex) (hholds : pc.Holds)
    (hcount : ∀ j, j ≠ i → t.handled.count j = s.handled.count j)
    (hserving : t.primary.server = .absent ↔ s.primary.server = .absent)
    (hhere : Local i { s.calls i with pc := pc } t.primary (t.handled.count i)) : Inv t := by
  refine hs.update hcalls hphase (fun j _ => by rw [hmutex]) (.inr hmine) hcount ?_ hserving ?_
  · intro hnone
    rw [hmutex, hmine] at hnone
    cases hnone
  · exact ⟨iff_of_true hholds (hmutex.trans hmine), (hs.calls i).served,
      hphase ▸ (hs.calls i).first, hhere⟩

/-! ## Steps -/

variable {s t : State ι} {i : ι}

theorem inv_acquire (hs : Inv s) (hfree : s.writeMutex = none) (hover : (s.calls i).Over)
    (hn : s.handled.count i = 0) :
    Inv { s.goto i .primaryWrite with writeMutex := some i } := by
  refine hs.update rfl rfl ?_ (.inl rfl) (fun _ _ => rfl) (fun h => by cases h) Iff.rfl ?_
  · intro j hj
    simp [hfree, Ne.symm hj]
  · exact ⟨iff_of_true trivial rfl, (hs.calls i).served, (hs.calls i).first, hover, hs.idle hfree, hn⟩

theorem inv_tryLock (hs : Inv s) (h : step s (.tryLock i) = some t) : Inv t := by
  have hhere := (hs.calls i).here
  simp only [step] at h
  split at h
  · rename_i hpc hfree
    cases h
    rw [Local, hpc] at hhere
    exact inv_acquire hs hfree (.inl hhere.1) hhere.2.2.2
  · cases h

theorem inv_lock (hs : Inv s) (h : step s (.lock i) = some t) : Inv t := by
  have hhere := (hs.calls i).here
  simp only [step] at h
  split at h
  · rename_i hpc hfree
    cases h
    rw [Local, hpc] at hhere
    exact inv_acquire hs hfree hhere.1 hhere.2
  · cases h

theorem inv_tryLockFails (hs : Inv s) (h : step s (.tryLockFails i) = some t) : Inv t := by
  have hhere := (hs.calls i).here
  simp only [step] at h
  split at h
  · rename_i hpc
    cases h
    rw [Local, hpc] at hhere
    apply hs.goto
    · simp [hpc, Pc.Holds]
    · exact hhere
  · cases h

theorem inv_write (hs : Inv s) (h : step s (.write i) = some t) : Inv t := by
  have hhere := (hs.calls i).here
  have hholder := (hs.calls i).holder
  simp only [step] at h
  split at h
  · rename_i hpc
    cases h
    rw [Local, hpc] at hhere
    rw [hpc] at hholder
    obtain ⟨hover, hquiet, hn⟩ := hhere
    have hcarries : (s.primary.send i).Carries .reading i (s.handled.count i) := by
      rw [hn]
      exact .sent (by simp [Channel.send, hquiet.up]) hquiet.down hquiet.server
    exact hs.owner (hholder.mp trivial) rfl rfl rfl trivial (fun _ _ => rfl) Iff.rfl
      ⟨hover, hcarries⟩
  · cases h
  · rename_i hpc _
    cases h
    rw [Local, hpc] at hhere
    obtain ⟨hlink, hquiet, hn⟩ := hhere
    refine hs.setCall (by simp [hpc, Pc.Holds]) (hs.calls i).served (hs.calls i).first ⟨hlink, ?_⟩
    rw [hn]
    exact .sent (by simp [Channel.send, hquiet.up]) hquiet.down hquiet.server
  · cases h

omit [DecidableEq ι] in
theorem Channel.Carries.of_down {c : Channel ι} {last : Server ι} {n : Nat} {r : ι} {rest : List ι}
    (hc : c.Carries last i n) (hdown : c.down = r :: rest) :
    r = i ∧ rest = [] ∧ c.up = [] ∧ c.server = last ∧ n = 1 := by
  cases hc with
  | sent up down server => cases down.symm.trans hdown
  | taken up down server => cases down.symm.trans hdown
  | answered up down server =>
    obtain ⟨rfl, rfl⟩ := List.cons.inj (hdown.symm.trans down)
    exact ⟨rfl, rfl, up, server, rfl⟩

theorem inv_read (hs : Inv s) (h : step s (.read i) = some t) : Inv t := by
  have hhere := (hs.calls i).here
  have hholder := (hs.calls i).holder
  simp only [step] at h
  split at h
  · rename_i r rest hpc hdown
    cases h
    rw [Local, hpc] at hhere
    rw [hpc] at hholder
    obtain ⟨hover, hcarries⟩ := hhere
    obtain ⟨rfl, rfl, hup, hserver, hn⟩ := hcarries.of_down hdown
    exact hs.owner (hholder.mp trivial) rfl rfl rfl trivial (fun _ _ => rfl) Iff.rfl
      ⟨hover, ⟨hup, rfl, .inr hserver⟩, hn, rfl⟩
  · rename_i r rest hpc hdown
    cases h
    rw [Local, hpc] at hhere
    obtain ⟨_, hcarries⟩ := hhere
    obtain ⟨rfl, rfl, _, hserver, hn⟩ := hcarries.of_down hdown
    exact hs.setCall (by simp [hpc, Pc.Holds]) (hs.calls r).served (hs.calls r).first
      ⟨.inr (.inr hserver), hn, rfl⟩
  · cases h

theorem inv_setFlag (hs : Inv s) (h : step s (.setFlag i) = some t) : Inv t := by
  have hhere := (hs.calls i).here
  have hholder := (hs.calls i).holder
  simp only [step] at h
  split at h
  · rename_i r hpc
    cases h
    rw [Local, hpc] at hhere
    rw [hpc] at hholder
    exact hs.owner (hholder.mp trivial) rfl rfl rfl trivial (fun _ _ => rfl) Iff.rfl hhere
  · cases h

theorem inv_unlock (hs : Inv s) (h : step s (.unlock i) = some t) : Inv t := by
  have hhere := (hs.calls i).here
  have hholder := (hs.calls i).holder
  simp only [step] at h
  split at h
  · rename_i r hpc
    cases h
    rw [Local, hpc] at hhere
    rw [hpc] at hholder
    obtain ⟨hover, hquiet, hn, hr⟩ := hhere
    have hmine := hholder.mp trivial
    refine hs.update rfl rfl ?_ (.inl rfl) (fun _ _ => rfl) (fun _ => hquiet) Iff.rfl ?_
    · intro j hj
      simp [hmine, Ne.symm hj]
    · exact ⟨by simp [Pc.Holds], (hs.calls i).served, (hs.calls i).first, hover, hn, hr⟩
  · cases h

theorem inv_connect (hs : Inv s) (h : step s (.connect i) = some t) : Inv t := by
  have hhere := (hs.calls i).here
  have hserved := (hs.calls i).served
  simp only [step] at h
  split at h
  · rename_i link hpc hqueue
    cases h
    rw [Local, hpc] at hhere
    obtain ⟨hlink, hup, hdown, hn⟩ := hhere
    have habsent : (s.calls i).socket.server = .absent := hserved.mpr (by simp [hlink])
    have hcases : (link = .first ∧ (s.phase = .accepting ∨ s.phase = .accepted)) ∨ link = .second := by
      cases hp : s.phase <;> simp_all [Phase.queue]
    refine hs.setCall (by simp [hpc, Pc.Holds]) ?_ ?_ ⟨?_, ⟨hup, hdown, .inl habsent⟩, hn⟩
    · rcases hcases with ⟨rfl, _⟩ | rfl <;> simp [habsent]
    · rcases hcases with ⟨rfl, hp⟩ | rfl <;> simp [*]
    · rcases hcases with ⟨rfl, _⟩ | rfl <;> simp
  · rename_i hpc _
    cases h
    rw [Local, hpc] at hhere
    apply hs.goto
    · simp [hpc, Pc.Holds]
    · exact ⟨.inl hhere.1, hhere.2.2.2⟩
  · cases h

omit [DecidableEq ι] in
theorem Channel.Carries.of_absent {c : Channel ι} {last : Server ι} {n : Nat}
    (hc : c.Carries last i n) (hlast : last ≠ .absent) (habsent : c.server = .absent) :
    c.up = [i] ∧ c.down = [] ∧ n = 0 := by
  cases hc with
  | sent up down server => exact ⟨up, down, rfl⟩
  | taken up down server => cases habsent.symm.trans server
  | answered up down server => exact absurd (server.symm.trans habsent) hlast

theorem inv_fail (hs : Inv s) (h : step s (.fail i) = some t) : Inv t := by
  have hhere := (hs.calls i).here
  simp only [step] at h
  split at h
  · rename_i hpc hlink
    cases h
    rw [Local, hpc] at hhere
    apply hs.goto
    · simp [hpc, Pc.Holds]
    · exact ⟨.inr (.inl hlink), hhere.2.2⟩
  · rename_i hpc hlink
    cases h
    rw [Local, hpc] at hhere
    have habsent : (s.calls i).socket.server = .absent := (hs.calls i).served.mpr (by simp [hlink])
    obtain ⟨_, _, hn⟩ := hhere.2.of_absent (by simp) habsent
    apply hs.goto
    · simp [hpc, Pc.Holds]
    · exact ⟨.inr (.inl hlink), hn⟩
  · cases h

theorem inv_test (hs : Inv s) (h : step s (.test i) = some t) : Inv t := by
  have hhere := (hs.calls i).here
  simp only [step] at h
  split at h
  · rename_i hpc
    cases h
    rw [Local, hpc] at hhere
    cases s.sentFirstEvent <;> exact hs.goto (by simp [hpc, Pc.Holds]) hhere
  · cases h

omit [DecidableEq ι] in
theorem Channel.Carries.of_up {c : Channel ι} {last : Server ι} {n : Nat} {r : ι} {rest : List ι}
    (hc : c.Carries last i n) (hup : c.up = r :: rest) :
    r = i ∧ rest = [] ∧ c.down = [] ∧ n = 0 := by
  cases hc with
  | sent up down server =>
    obtain ⟨rfl, rfl⟩ := List.cons.inj (hup.symm.trans up)
    exact ⟨rfl, rfl, down, rfl⟩
  | taken up down server => cases hup.symm.trans up
  | answered up down server => cases hup.symm.trans up

omit [DecidableEq ι] in
theorem Channel.Carries.of_handling {c : Channel ι} {last : Server ι} {n : Nat} {r : ι}
    (hlast : last = .reading ∨ last = .finished) (hc : c.Carries last i n)
    (hserver : c.server = .handling r) : r = i ∧ c.up = [] ∧ c.down = [] ∧ n = 1 := by
  cases hc with
  | sent up down server => rcases server with h | h <;> cases hserver.symm.trans h
  | taken up down server =>
    cases hserver.symm.trans server
    exact ⟨rfl, up, down, rfl⟩
  | answered up down server =>
    subst server
    rcases hlast with h | h <;> cases hserver.symm.trans h

/-- The primary socket is only busy for a call that waits for its response there. -/
theorem owner_of_busy (hs : Inv s) (hbusy : ¬ s.primary.Quiet) :
    ∃ j, s.writeMutex = some j ∧ (s.calls j).pc = .primaryRead ∧ (s.calls j).Over ∧
      s.primary.Carries .reading j (s.handled.count j) := by
  cases hm : s.writeMutex with
  | none => exact absurd (hs.idle hm) hbusy
  | some j =>
    have hholds := (hs.calls j).holder.mpr hm
    have hhere := (hs.calls j).here
    unfold Local at hhere
    cases hpc : (s.calls j).pc <;> rw [hpc] at hhere hholds
    case primaryRead => exact ⟨j, rfl, hpc, hhere⟩
    case primaryWrite => exact absurd hhere.2.1 hbusy
    case primaryDone => exact absurd hhere.2.1 hbusy
    case unlocking => exact absurd hhere.2.1 hbusy
    all_goals exact hholds.elim

theorem reading_of_busy (hs : Inv s) (hlink : (s.calls i).link = .served)
    (hfinished : (s.calls i).socket.server ≠ .finished) (hbusy : ¬ (s.calls i).socket.Quiet) :
    (s.calls i).pc = .secondaryRead ∧
      (s.calls i).socket.Carries .finished i (s.handled.count i) := by
  have hover : ¬ (s.calls i).Over := by
    rintro (h | h | h)
    · cases hlink.symm.trans h
    · cases hlink.symm.trans h
    · exact hfinished h
  have hhere := (hs.calls i).here
  unfold Local at hhere
  cases hpc : (s.calls i).pc <;> rw [hpc] at hhere
  case secondaryRead => exact ⟨rfl, hhere.2⟩
  case secondaryWrite => exact absurd hhere.2.1 hbusy
  case start => cases hlink.symm.trans hhere.1
  case connecting => cases hlink.symm.trans hhere.1
  all_goals exact absurd hhere.1 hover

theorem inv_takePrimary (hs : Inv s) (h : step s .takePrimary = some t) : Inv t := by
  simp only [step] at h
  split at h
  · rename_i r rest hserver hup
    cases h
    have hbusy : ¬ s.primary.Quiet := by
      intro hq
      cases hup.symm.trans hq.up
    obtain ⟨j, hmine, hpc, hover, hcarries⟩ := owner_of_busy hs hbusy
    obtain ⟨rfl, rfl, hdown, hn⟩ := hcarries.of_up hup
    refine hs.owner hmine (Function.update_eq_self r s.calls).symm rfl rfl
      (by rw [hpc]; trivial) (fun k hk => ?_) (by simp [hserver]) ?_
    · simp [List.count_append, Ne.symm hk]
    · have hone : (s.handled ++ [r]).count r = 1 := by simp [List.count_append, hn]
      unfold Local
      rw [hpc]
      exact ⟨hover, hone ▸ .taken rfl hdown rfl⟩
  · cases h

theorem inv_answerPrimary (hs : Inv s) (h : step s .answerPrimary = some t) : Inv t := by
  simp only [step] at h
  split at h
  · rename_i r hserver
    cases h
    have hbusy : ¬ s.primary.Quiet := by
      intro hq
      rcases hq.server with hs | hs <;> cases hserver.symm.trans hs
    obtain ⟨j, hmine, hpc, hover, hcarries⟩ := owner_of_busy hs hbusy
    obtain ⟨rfl, hup, hdown, hn⟩ := hcarries.of_handling (.inl rfl) hserver
    refine hs.owner hmine (Function.update_eq_self r s.calls).symm rfl rfl
      (by rw [hpc]; trivial) (fun _ _ => rfl) (by simp [hserver]) ?_
    unfold Local
    rw [hpc, hn]
    exact ⟨hover, .answered hup (by simp [hdown]) rfl⟩
  · cases h

theorem inv_acceptSecondary (hs : Inv s) (h : step s (.acceptSecondary i) = some t) : Inv t := by
  have hhere := (hs.calls i).here
  simp only [step] at h
  split at h
  · rename_i hlink
    cases h
    have habsent : (s.calls i).socket.server = .absent := (hs.calls i).served.mpr (by simp [hlink])
    have hover : ¬ (s.calls i).Over := by simp [Call.Over, hlink, habsent]
    refine hs.setCall Iff.rfl (by simp) (by simp) ?_
    unfold Local at hhere ⊢
    cases hpc : (s.calls i).pc <;> rw [hpc] at hhere
    case secondaryWrite =>
      obtain ⟨_, hquiet, hn⟩ := hhere
      exact ⟨by simp, ⟨hquiet.up, hquiet.down, .inr rfl⟩, hn⟩
    case secondaryRead =>
      obtain ⟨hup, hdown, hn⟩ := hhere.2.of_absent (by simp) habsent
      exact ⟨by simp, hn ▸ .sent hup hdown (.inr rfl)⟩
    case start => cases hlink.symm.trans hhere.1
    case connecting => cases hlink.symm.trans hhere.1
    all_goals exact absurd hhere.1 hover
  · cases h

theorem served_of_server (hs : Inv s) (h : (s.calls i).socket.server ≠ .absent) :
    (s.calls i).link = .served := by
  by_contra hlink
  exact h ((hs.calls i).served.mpr hlink)

theorem inv_takeSecondary (hs : Inv s) (h : step s (.takeSecondary i) = some t) : Inv t := by
  simp only [step] at h
  split at h
  · rename_i r rest hserver hup
    cases h
    have hlink := served_of_server hs (i := i) (by simp [hserver])
    have hbusy : ¬ (s.calls i).socket.Quiet := by
      intro hq
      cases hup.symm.trans hq.up
    obtain ⟨hpc, hcarries⟩ := reading_of_busy hs hlink (by simp [hserver]) hbusy
    obtain ⟨rfl, rfl, hdown, hn⟩ := hcarries.of_up hup
    have hcount : ∀ k, k ≠ r → (s.handled ++ [r]).count k = s.handled.count k := by
      intro k hk
      simp [List.count_append, Ne.symm hk]
    refine hs.update rfl rfl (fun _ _ => Iff.rfl) (.inl rfl) hcount hs.idle Iff.rfl
      ⟨(hs.calls r).holder, by simp [hlink], by simp [hlink], ?_⟩
    have hone : (s.handled ++ [r]).count r = 1 := by simp [List.count_append, hn]
    simp only [Local, hpc]
    exact ⟨by simp [hlink], hone ▸ .taken rfl hdown rfl⟩
  · cases h

theorem inv_answerSecondary (hs : Inv s) (h : step s (.answerSecondary i) = some t) : Inv t := by
  simp only [step] at h
  split at h
  · rename_i r hserver
    cases h
    have hlink := served_of_server hs (i := i) (by simp [hserver])
    have hbusy : ¬ (s.calls i).socket.Quiet := by
      intro hq
      rcases hq.server with hs | hs <;> cases hserver.symm.trans hs
    obtain ⟨hpc, hcarries⟩ := reading_of_busy hs hlink (by simp [hserver]) hbusy
    obtain ⟨rfl, hup, hdown, hn⟩ := hcarries.of_handling (.inr rfl) hserver
    refine hs.setCall Iff.rfl (by simp [hlink]) (by simp [hlink]) ?_
    simp only [Local, hpc, hn]
    exact ⟨by simp [hlink], .answered hup (by simp [hdown]) rfl⟩
  · cases h

/-! ## The other side -/

theorem inv_accept (hs : Inv s) (h : step s .accept = some t) : Inv t := by
  simp only [step] at h
  split at h
  · rename_i hphase
    cases h
    refine ⟨hs.idle, hs.serving.trans (by simp [hphase]), ?_⟩
    intro i
    obtain ⟨hholder, hserved, _, hhere⟩ := hs.calls i
    exact ⟨hholder, hserved, fun _ => .inr rfl, hhere⟩
  · cases h

omit [DecidableEq ι] in
theorem Local.dropped {c : Call ι} {p : Channel ι} {n : Nat} (h : Local i c p n)
    (hserved : c.socket.server = .absent ↔ c.link ≠ .served) : Local i c.dropped p n := by
  cases hlink : c.link
  case first =>
    have habsent : c.socket.server = .absent := hserved.mpr (by simp [hlink])
    have hover : ¬ c.Over := by simp [Call.Over, hlink, habsent]
    simp only [Call.dropped, hlink]
    unfold Local at h ⊢
    cases hpc : c.pc <;> rw [hpc] at h
    case secondaryWrite => exact ⟨by simp, h.2⟩
    case secondaryRead => exact ⟨by simp, h.2⟩
    case start => cases hlink.symm.trans h.1
    case connecting => cases hlink.symm.trans h.1
    all_goals exact absurd h.1 hover
  all_goals
    simp only [Call.dropped, hlink]
    exact h

omit [DecidableEq ι] in
theorem dropped_pc (c : Call ι) : c.dropped.pc = c.pc := by
  cases h : c.link <;> simp [Call.dropped, h]

theorem inv_reset (hs : Inv s) (h : step s .reset = some t) : Inv t := by
  simp only [step] at h
  split at h
  · rename_i hphase
    cases h
    refine ⟨hs.idle, hs.serving.trans (by simp [hphase]), ?_⟩
    intro i
    obtain ⟨hholder, hserved, _, hhere⟩ := hs.calls i
    refine ⟨by rw [dropped_pc]; exact hholder, ?_, ?_, hhere.dropped hserved⟩
    · cases hlink : (s.calls i).link <;> simpa [Call.dropped, hlink] using hserved
    · cases hlink : (s.calls i).link <;> simp [Call.dropped, hlink]
  · cases h

theorem inv_listen (hs : Inv s) (h : step s .listen = some t) : Inv t := by
  simp only [step] at h
  split at h
  · rename_i hphase
    cases h
    have habsent : s.primary.server = .absent := hs.serving.mpr (by simp [hphase])
    have hquiet : s.primary.Quiet → Channel.Quiet { s.primary with server := .reading } := by
      intro hq
      exact ⟨hq.up, hq.down, .inr rfl⟩
    refine ⟨fun hm => hquiet (hs.idle hm), by simp, ?_⟩
    intro i
    obtain ⟨hholder, hserved, hfirst, hhere⟩ := hs.calls i
    refine ⟨hholder, hserved, ?_, ?_⟩
    · intro hl
      rcases hfirst hl with hp | hp <;> cases hphase.symm.trans hp
    · unfold Local at hhere ⊢
      cases hpc : (s.calls i).pc <;> rw [hpc] at hhere
      case primaryRead =>
        obtain ⟨hover, hcarries⟩ := hhere
        obtain ⟨hup, hdown, hn⟩ := hcarries.of_absent (by simp) habsent
        exact ⟨hover, hn ▸ .sent hup hdown (.inr rfl)⟩
      case primaryWrite => exact ⟨hhere.1, hquiet hhere.2.1, hhere.2.2⟩
      case primaryDone => exact ⟨hhere.1, hquiet hhere.2.1, hhere.2.2⟩
      case unlocking => exact ⟨hhere.1, hquiet hhere.2.1, hhere.2.2⟩
      all_goals exact hhere
  · cases h

theorem inv_step (s : State ι) (a : Action ι) (t : State ι) (hs : Inv s)
    (h : step s a = some t) : Inv t := by
  cases a with
  | tryLock i => exact inv_tryLock hs h
  | tryLockFails i => exact inv_tryLockFails hs h
  | write i => exact inv_write hs h
  | read i => exact inv_read hs h
  | setFlag i => exact inv_setFlag hs h
  | unlock i => exact inv_unlock hs h
  | connect i => exact inv_connect hs h
  | fail i => exact inv_fail hs h
  | test i => exact inv_test hs h
  | lock i => exact inv_lock hs h
  | accept => exact inv_accept hs h
  | reset => exact inv_reset hs h
  | listen => exact inv_listen hs h
  | acceptSecondary i => exact inv_acceptSecondary hs h
  | takePrimary => exact inv_takePrimary hs h
  | answerPrimary => exact inv_answerPrimary hs h
  | takeSecondary i => exact inv_takeSecondary hs h
  | answerSecondary i => exact inv_answerSecondary hs h

theorem inv_run {listens : Bool} {as : List (Action ι)} (h : run step (start listens) as = some t) :
    Inv t :=
  run_always inv_step (inv_start listens) h

/-! ## Progress -/

def Final (s : State ι) : Prop := ∀ a, step s a = none

theorem listening_of_final (hfinal : Final s) : s.phase = .listening := by
  have haccept := hfinal .accept
  have hreset := hfinal .reset
  have hlisten := hfinal .listen
  cases hp : s.phase <;> simp_all [step]

theorem unlocked_of_final (hs : Inv s) (hfinal : Final s) : s.writeMutex = none := by
  have hserving : s.primary.server ≠ .absent := by
    intro h
    exact hs.serving.mp h (listening_of_final hfinal)
  by_contra hm
  obtain ⟨j, hj⟩ := Option.ne_none_iff_exists'.mp hm
  have hholds := (hs.calls j).holder.mpr hj
  have hhere := (hs.calls j).here
  unfold Local at hhere
  cases hpc : (s.calls j).pc <;> rw [hpc] at hhere hholds
  case primaryWrite =>
    have := hfinal (.write j)
    simp [step, hpc] at this
  case primaryRead =>
    obtain ⟨_, hcarries⟩ := hhere
    generalize s.handled.count j = n at hcarries
    cases hcarries with
    | sent up down server =>
      have := hfinal .takePrimary
      simp [step, server.resolve_left hserving, up] at this
    | taken up down server =>
      have := hfinal .answerPrimary
      simp [step, server] at this
    | answered up down server =>
      have := hfinal (.read j)
      simp [step, hpc, down] at this
  case primaryDone r =>
    have := hfinal (.setFlag j)
    simp [step, hpc] at this
  case unlocking r =>
    have := hfinal (.unlock j)
    simp [step, hpc] at this
  all_goals exact hholds.elim

theorem ended_of_final (hs : Inv s) (hfinal : Final s) (i : ι) :
    (∃ r, (s.calls i).pc = .returned r) ∨ (s.calls i).pc = .thrown := by
  have hphase := listening_of_final hfinal
  have hfree := unlocked_of_final hs hfinal
  obtain ⟨hholder, hserved, hfirst, hhere⟩ := hs.calls i
  unfold Local at hhere
  cases hpc : (s.calls i).pc <;> rw [hpc] at hhere
  case returned r => exact .inl ⟨r, rfl⟩
  case thrown => exact .inr rfl
  case start =>
    have := hfinal (.tryLockFails i)
    simp [step, hpc] at this
  case connecting =>
    have := hfinal (.connect i)
    simp [step, hpc, hphase, Phase.queue] at this
  case caught =>
    have := hfinal (.test i)
    simp [step, hpc] at this
  case waiting =>
    have := hfinal (.lock i)
    simp [step, hpc, hfree] at this
  case secondaryWrite =>
    have hwrite := hfinal (.write i)
    have hfail := hfinal (.fail i)
    cases hlink : (s.calls i).link <;> simp [step, hpc, hlink] at hwrite hfail
  case secondaryRead =>
    cases hlink : (s.calls i).link
    case none => exact absurd hlink hhere.1
    case first => rcases hfirst hlink with h | h <;> cases hphase.symm.trans h
    case reset =>
      have := hfinal (.fail i)
      simp [step, hpc, hlink] at this
    case second =>
      have := hfinal (.acceptSecondary i)
      simp [step, hlink] at this
    case served =>
      have hbusy : (s.calls i).socket.server ≠ .absent := by
        intro h
        exact hserved.mp h hlink
      obtain ⟨_, hcarries⟩ := hhere
      generalize s.handled.count i = n at hcarries
      cases hcarries with
      | sent up down server =>
        have := hfinal (.takeSecondary i)
        simp [step, server.resolve_left hbusy, up] at this
      | taken up down server =>
        have := hfinal (.answerSecondary i)
        simp [step, server] at this
      | answered up down server =>
        have := hfinal (.read i)
        simp [step, hpc, down] at this
  all_goals
    rw [hpc] at hholder
    cases hfree.symm.trans (hholder.mp trivial)

/-! ## Exceptions -/

/-- A call whose secondary connection failed tests `sent_first_event_` while it is still false. -/
def Early (s : State ι) : Action ι → Prop
  | .test _ => s.sentFirstEvent = false
  | _ => True

@[simp] theorem setCall_pc (s : State ι) (i j : ι) (c : Call ι) :
    ((s.setCall i c).calls j).pc = if j = i then c.pc else (s.calls j).pc := by
  by_cases h : j = i <;> simp [State.setCall, Function.update, h]

@[simp] theorem goto_pc (s : State ι) (i j : ι) (pc : Pc ι) :
    ((s.goto i pc).calls j).pc = if j = i then pc else (s.calls j).pc :=
  setCall_pc s i j _

theorem thrown_iff {a : Action ι} (h : step s a = some t) (j : ι) :
    (t.calls j).pc = .thrown ↔
      (s.calls j).pc = .thrown ∨ a = .test j ∧ s.sentFirstEvent = true := by
  cases a <;> simp only [step] at h <;> (repeat' split at h) <;> cases h
  all_goals simp [dropped_pc] <;> grind

theorem no_throw_iff {as : List (Action ι)} (h : run step s as = some t) :
    (∀ i, (t.calls i).pc ≠ .thrown) ↔ (∀ i, (s.calls i).pc ≠ .thrown) ∧ Meets step Early s as := by
  induction as generalizing s with
  | nil =>
    obtain rfl := Option.some.inj h
    simp [Meets]
  | cons a as ih =>
    obtain ⟨u, hu, hrun⟩ := run_cons_eq_some.mp h
    have hmeets : Meets step Early s (a :: as) ↔ Early s a ∧ Meets step Early u as := by
      simp [Meets, hu]
    have hfirst : (∀ i, (u.calls i).pc ≠ .thrown) ↔ (∀ i, (s.calls i).pc ≠ .thrown) ∧ Early s a := by
      simp only [ne_eq, thrown_iff hu, not_or, forall_and]
      apply and_congr_right
      intro _
      cases a <;> simp [Early]
    rw [ih hrun, hmeets, hfirst, and_assoc]

/-! ## Termination -/

def Server.weight : Server ι → Nat
  | handling _ => 2
  | _ => 0

def Channel.weight (c : Channel ι) : Nat := 3 * c.up.length + c.server.weight + c.down.length

def Link.weight : Link → Nat
  | first => 1
  | second => 1
  | _ => 0

def Pc.weight : Pc ι → Nat
  | start => 17
  | connecting => 16
  | secondaryWrite => 14
  | secondaryRead => 10
  | caught => 9
  | waiting => 8
  | primaryWrite => 7
  | primaryRead => 3
  | primaryDone _ => 2
  | unlocking _ => 1
  | returned _ => 0
  | thrown => 0

def Call.weight (c : Call ι) : Nat := c.pc.weight + c.link.weight + c.socket.weight

def Phase.weight : Phase → Nat
  | accepting => 3
  | accepted => 2
  | connected => 1
  | listening => 0

variable [Fintype ι]

def State.weight (s : State ι) : Nat :=
  s.phase.weight + s.primary.weight + ∑ i, (s.calls i).weight

theorem weight_lt_of_update {c : Call ι} (hcalls : t.calls = Function.update s.calls i c)
    (h : t.phase.weight + t.primary.weight + c.weight <
      s.phase.weight + s.primary.weight + (s.calls i).weight) : t.weight < s.weight := by
  have hold := Finset.add_sum_erase Finset.univ (fun j => (s.calls j).weight) (Finset.mem_univ i)
  have hnew := Finset.add_sum_erase Finset.univ (fun j => (t.calls j).weight) (Finset.mem_univ i)
  have hrest : ∑ j ∈ Finset.univ.erase i, (t.calls j).weight =
      ∑ j ∈ Finset.univ.erase i, (s.calls j).weight := by
    apply Finset.sum_congr rfl
    intro j hj
    rw [hcalls, Function.update_of_ne (Finset.ne_of_mem_erase hj)]
  have hself : (t.calls i).weight = c.weight := by rw [hcalls, Function.update_self]
  simp only [State.weight]
  omega

omit [DecidableEq ι] in
theorem weight_lt_of_calls (hcalls : t.calls = s.calls)
    (h : t.phase.weight + t.primary.weight < s.phase.weight + s.primary.weight) :
    t.weight < s.weight := by
  simp only [State.weight, hcalls]
  omega

omit [DecidableEq ι] [Fintype ι] in
theorem dropped_weight_le (c : Call ι) : c.dropped.weight ≤ c.weight := by
  cases h : c.link <;> simp [Call.dropped, Call.weight, h, Link.weight]

theorem weight_decreases (s : State ι) (a : Action ι) (t : State ι) (h : step s a = some t) :
    t.weight < s.weight := by
  cases a with
  | accept =>
    simp only [step] at h
    split at h <;> cases h
    rename_i hphase
    apply weight_lt_of_calls
    · rfl
    · simp [hphase, Phase.weight]
  | reset =>
    simp only [step] at h
    split at h <;> cases h
    rename_i hphase
    have hsum : ∑ i, (s.calls i).dropped.weight ≤ ∑ i, (s.calls i).weight :=
      Finset.sum_le_sum fun i _ => dropped_weight_le (s.calls i)
    simp only [State.weight, hphase, Phase.weight]
    omega
  | listen =>
    simp only [step] at h
    split at h <;> cases h
    rename_i hphase
    apply weight_lt_of_calls
    · rfl
    · simp [hphase, Phase.weight, Channel.weight, Server.weight]
      omega
  | takePrimary =>
    simp only [step] at h
    split at h <;> cases h
    rename_i r rest hserver hup
    apply weight_lt_of_calls
    · rfl
    · simp [hserver, hup, Channel.weight, Server.weight]
      omega
  | answerPrimary =>
    simp only [step] at h
    split at h <;> cases h
    rename_i r hserver
    apply weight_lt_of_calls
    · rfl
    · simp [hserver, Channel.weight, Server.weight]
      omega
  | connect i =>
    simp only [step] at h
    split at h <;> cases h
    · rename_i link hpc hqueue
      have hlink : link.weight = 1 := by
        cases hp : s.phase <;> rw [hp] at hqueue <;> cases hqueue <;> rfl
      refine weight_lt_of_update rfl ?_
      simp only [Call.weight, State.setCall, hpc, hlink, Pc.weight]
      omega
    · rename_i hpc _
      refine weight_lt_of_update rfl ?_
      simp [Call.weight, State.goto, State.setCall, hpc, Pc.weight]
  | test i =>
    simp only [step] at h
    split at h <;> cases h
    rename_i hpc
    refine weight_lt_of_update rfl ?_
    cases s.sentFirstEvent <;> simp [Call.weight, State.goto, State.setCall, hpc, Pc.weight]
  | _ =>
    simp only [step] at h
    repeat' split at h
    all_goals cases h
    all_goals
      refine weight_lt_of_update rfl ?_
      simp [Call.weight, Channel.weight, Channel.send, State.goto, State.setCall, Pc.weight,
        Link.weight, Server.weight, *]
      try omega

omit [DecidableEq ι] in
theorem start_weight_le (listens : Bool) :
    (start listens : State ι).weight ≤ 17 * Fintype.card ι + 3 := by
  have hcall : ∀ i, ((start listens : State ι).calls i).weight = 17 := by
    intro _
    rfl
  have hsum : ∑ i, ((start listens : State ι).calls i).weight = Fintype.card ι * 17 :=
    Finset.sum_const_nat fun i _ => hcall i
  have hrest : (start listens : State ι).primary.weight = 0 := rfl
  have hphase : (start listens : State ι).phase.weight ≤ 3 := by
    cases listens <;> simp [start, Phase.weight]
  unfold State.weight
  rw [hsum, hrest]
  omega

/-! ## Start-up -/

/-- No call throws, no request is handled twice, a call returns the response to its own request,
which has been handled, and all calls have returned when no step is left. -/
structure Survives (s : State ι) : Prop where
  no_throw : ∀ i, (s.calls i).pc ≠ .thrown
  handled_le : ∀ i, s.handled.count i ≤ 1
  own : ∀ i r, (s.calls i).pc = .returned r → r = i ∧ s.handled.count i = 1
  returns : Final s → ∀ i, ∃ r, (s.calls i).pc = .returned r

omit [DecidableEq ι] [Fintype ι] in
theorem Local.le_one {c : Call ι} {p : Channel ι} {n : Nat} (h : Local i c p n) : n ≤ 1 := by
  have hcarries : ∀ {c : Channel ι} {last : Server ι}, c.Carries last i n → n ≤ 1 := by
    intro c last hc
    cases hc <;> omega
  unfold Local at h
  cases hpc : c.pc <;> rw [hpc] at h
  case primaryRead => exact hcarries h.2
  case secondaryRead => exact hcarries h.2
  all_goals omega

omit [Fintype ι] in
theorem survives_of_no_throw (hs : Inv s) (hthrow : ∀ i, (s.calls i).pc ≠ .thrown) :
    Survives s := by
  refine ⟨hthrow, fun i => (hs.calls i).here.le_one, ?_, ?_⟩
  · intro i r hpc
    have hhere := (hs.calls i).here
    rw [Local, hpc] at hhere
    exact ⟨hhere.2.2, hhere.2.1⟩
  · intro hfinal i
    exact (ended_of_final hs hfinal i).resolve_right (hthrow i)

omit [Fintype ι] in
theorem survives_iff {listens : Bool} {as : List (Action ι)}
    (h : run step (start listens) as = some t) :
    Survives t ↔ Meets step Early (start listens) as := by
  have hstart : ∀ i, ((start listens : State ι).calls i).pc ≠ .thrown := by
    intro i
    simp [start]
  have hthrow : (∀ i, (t.calls i).pc ≠ .thrown) ↔ Meets step Early (start listens) as :=
    (no_throw_iff h).trans (and_iff_right hstart)
  constructor
  · intro hs
    exact hthrow.mp hs.no_throw
  · intro hm
    apply survives_of_no_throw (inv_run h)
    exact hthrow.mpr hm

/-- Every schedule comes to an end, and all calls survive it exactly when no test of
`sent_first_event_` comes too late. -/
theorem sends_survive_iff {listens : Bool} {as : List (Action ι)}
    (h : run step (start listens) as = some t) :
    as.length ≤ 17 * Fintype.card ι + 3 ∧
      (Survives t ↔ Meets step Early (start listens) as) := by
  refine ⟨?_, survives_iff h⟩
  have hlength := run_length_le weight_decreases h
  have hstart : (start listens : State ι).weight ≤ _ := start_weight_le listens
  omega

/-- Two calls; the second one finds its connection reset and falls back. -/
def fallback : List (Action Bool) :=
  [.tryLock true, .write true, .tryLockFails false, .connect false, .write false, .accept, .reset,
    .fail false, .test false, .listen, .takePrimary, .answerPrimary, .read true, .setFlag true,
    .unlock true, .lock false, .write false, .takePrimary, .answerPrimary, .read false,
    .setFlag false, .unlock false]

theorem fallback_pcs :
    (run step (start true) fallback).map (fun t => ((t.calls true).pc, (t.calls false).pc)) =
      some (.returned true, .returned false) := by
  decide +kernel

theorem sends_survive_fallback :
    ∃ t : State Bool, run step (start true) fallback = some t ∧ Survives t := by
  obtain ⟨t, ht, hpcs⟩ := Option.map_eq_some_iff.mp fallback_pcs
  obtain ⟨htrue, hfalse⟩ := Prod.mk.inj hpcs
  have hthrow : ∀ i, (t.calls i).pc ≠ .thrown := by
    intro i
    cases i
    · simp [hfalse]
    · simp [htrue]
  refine ⟨t, ht, ?_⟩
  apply (sends_survive_iff ht).2.mpr
  exact ((no_throw_iff ht).mp hthrow).2

/-- The second call is refused before the other side listens, and tests the flag only after the
first one has set it. -/
def late : List (Action Bool) :=
  [.tryLock true, .write true, .tryLockFails false, .connect false, .listen, .takePrimary,
    .answerPrimary, .read true, .setFlag true, .test false]

theorem late_pc :
    (run step (start false) late).map (fun t => (t.calls false).pc) = some .thrown := by
  decide +kernel

theorem late_throws : ¬ ∀ (listens : Bool) (as : List (Action Bool)) (t : State Bool),
    run step (start listens) as = some t → Survives t := by
  intro hall
  obtain ⟨t, ht, hpc⟩ := Option.map_eq_some_iff.mp late_pc
  exact (hall false late t ht).no_throw false hpc

end Wasivst.AdHocSocketHandler.Send
