import Mathlib.Logic.Function.Basic
import Wasivst.Lib.Transition

/-!
# `AdHocSocketHandler::close` against `receive_multi`

One thread is in `receive_multi`, with its acceptor thread and any number of secondary requests;
another one calls `close`. Every statement that the others can notice is a step. The mutex is
`active_secondary_requests_mutex`. The locals of `receive_multi` are destroyed in reverse order:
the lock, the acceptor thread, the map with the threads of the requests.
-/

set_option autoImplicit false

namespace Wasivst.AdHocSocketHandler.Close
open Transition

inductive Receiver where
  | entered
  | flagged
  | looping
  | inPrimary
  | left
  | locked
  | stopped
  | acceptorReset
  | cleared
  | unlocked
  | acceptorJoined
  | returned
  deriving DecidableEq

/-- The thread that runs `secondary_context`: between handlers, in an accept handler before and
after it has the mutex, or in a posted job that joins the thread of a request. -/
inductive Acceptor where
  | absent
  | polling
  | accepting
  | spawning
  | erasing (k : Nat)
  | joining (k : Nat)
  | done
  deriving DecidableEq

/-- The thread of a secondary request. -/
inductive Secondary where
  | absent
  | spawned
  | inCallback
  | posting
  | finished
  | joined
  deriving DecidableEq

inductive Closer where
  | idle
  | shutdown
  | closed
  | returned
  deriving DecidableEq

inductive Owner where
  | receiver
  | acceptor
  deriving DecidableEq

/-- `armed` is an outstanding `async_accept`, `jobs` what has been posted to `secondary_context`. -/
structure State where
  receiver : Receiver
  acceptor : Acceptor
  requests : Nat → Secondary
  nextRequestId : Nat
  mutex : Option Owner
  jobs : List Nat
  armed : Bool
  contextStopped : Bool
  currentlyListening : Bool
  closer : Closer

inductive Action where
  | setFlag
  | setUp
  | callPrimary
  | primaryReturns
  | primaryThrows
  | lock
  | stop
  | resetAcceptor
  | clearFlag
  | unlock
  | joinAcceptor
  | joinRequests
  | acceptFails
  | acceptHandler
  | acceptLock
  | spawn
  | eraseHandler
  | eraseLock
  | erase
  | runReturns
  | callSecondary (k : Nat)
  | secondaryReturns (k : Nat)
  | postErase (k : Nat)
  | shutdown
  | closeSocket
  | check

def init : State := ⟨.entered, .absent, fun _ => .absent, 0, none, [], false, false, false, .idle⟩

def State.setRequest (s : State) (k : Nat) (r : Secondary) : State :=
  { s with requests := Function.update s.requests k r }

/-- A primary callback throws when a side has closed the socket; the peer may do so any time. -/
def step (s : State) : Action → Option State
  | .setFlag =>
    if s.receiver = .entered then
      some { s with receiver := .flagged, currentlyListening := true }
    else none
  | .setUp =>
    if s.receiver = .flagged then
      some { s with receiver := .looping, acceptor := .polling, armed := true }
    else none
  | .callPrimary =>
    if s.receiver = .looping then some { s with receiver := .inPrimary } else none
  | .primaryReturns =>
    if s.receiver = .inPrimary then some { s with receiver := .looping } else none
  | .primaryThrows =>
    if s.receiver = .inPrimary then some { s with receiver := .left } else none
  | .lock =>
    if s.receiver = .left ∧ s.mutex = none then
      some { s with receiver := .locked, mutex := some .receiver }
    else none
  | .stop =>
    if s.receiver = .locked then
      some { s with receiver := .stopped, contextStopped := true }
    else none
  | .resetAcceptor =>
    if s.receiver = .stopped then
      some { s with receiver := .acceptorReset, armed := false }
    else none
  | .clearFlag =>
    if s.receiver = .acceptorReset then
      some { s with receiver := .cleared, currentlyListening := false }
    else none
  | .unlock =>
    if s.receiver = .cleared then some { s with receiver := .unlocked, mutex := none } else none
  | .joinAcceptor =>
    if s.receiver = .unlocked ∧ s.acceptor = .done then
      some { s with receiver := .acceptorJoined }
    else none
  | .joinRequests =>
    if s.receiver = .acceptorJoined ∧ ∀ k < s.nextRequestId,
        s.requests k = .finished ∨ s.requests k = .joined then
      some { s with receiver := .returned }
    else none
  | .acceptFails =>
    if s.acceptor = .polling ∧ s.contextStopped = false ∧ s.armed = true then
      some { s with armed := false }
    else none
  | .acceptHandler =>
    if s.acceptor = .polling ∧ s.contextStopped = false ∧ s.armed = true then
      some { s with acceptor := .accepting, armed := false }
    else none
  | .acceptLock =>
    if s.acceptor = .accepting ∧ s.mutex = none then
      some { s with acceptor := .spawning, mutex := some .acceptor }
    else none
  | .spawn =>
    if s.acceptor = .spawning then
      some { s.setRequest s.nextRequestId .spawned with
        acceptor := .polling
        nextRequestId := s.nextRequestId + 1
        mutex := none
        armed := true }
    else none
  | .eraseHandler =>
    match s.jobs with
    | k :: rest =>
      if s.acceptor = .polling ∧ s.contextStopped = false then
        some { s with acceptor := .erasing k, jobs := rest }
      else none
    | [] => none
  | .eraseLock =>
    match s.acceptor with
    | .erasing k =>
      if s.mutex = none then some { s with acceptor := .joining k, mutex := some .acceptor }
      else none
    | _ => none
  | .erase =>
    match s.acceptor with
    | .joining k =>
      if s.requests k = .finished then
        some { s.setRequest k .joined with acceptor := .polling, mutex := none }
      else none
    | _ => none
  | .runReturns =>
    if s.acceptor = .polling ∧ s.contextStopped = true then some { s with acceptor := .done }
    else none
  | .callSecondary k =>
    if s.requests k = .spawned then some (s.setRequest k .inCallback) else none
  | .secondaryReturns k =>
    if s.requests k = .inCallback then some (s.setRequest k .posting) else none
  | .postErase k =>
    if s.requests k = .posting then
      some { s.setRequest k .finished with jobs := s.jobs ++ [k] }
    else none
  | .shutdown => if s.closer = .idle then some { s with closer := .shutdown } else none
  | .closeSocket => if s.closer = .shutdown then some { s with closer := .closed } else none
  | .check =>
    if s.closer = .closed then
      some (if s.currentlyListening then s else { s with closer := .returned })
    else none

/-- Once `close` has returned, no callback is executing. -/
def Safe (s : State) : Prop :=
  s.closer = .returned → s.receiver ≠ .inPrimary ∧ ∀ k, s.requests k ≠ .inCallback

/-- The callback of the request has returned, or there is no such request. -/
def Secondary.Past : Secondary → Prop
  | spawned => False
  | inCallback => False
  | _ => True

/-- No secondary callback is executing or about to, and no accept handler is in progress. -/
structure Calm (s : State) : Prop where
  requests : ∀ k, (s.requests k).Past
  accepting : s.acceptor ≠ .accepting
  spawning : s.acceptor ≠ .spawning

/-- `close` reads the flag after `receive_multi` has set it, and `receive_multi` clears it when all
is calm. -/
def Orderly (s : State) : Action → Prop
  | .check => s.receiver ≠ .entered
  | .clearFlag => Calm s
  | _ => True

/-! ## Orderly runs -/

namespace Receiver

/-- Between the two writes to `currently_listening_`. -/
def Listening (r : Receiver) : Prop :=
  r = flagged ∨ r = looping ∨ r = inPrimary ∨ r = left ∨ r = locked ∨ r = stopped ∨
    r = acceptorReset

def Cleared (r : Receiver) : Prop := r = cleared ∨ r = unlocked ∨ r = acceptorJoined ∨ r = returned

end Receiver

structure Inv (s : State) : Prop where
  listening : s.currentlyListening = true ↔ s.receiver.Listening
  early : s.receiver = .entered ∨ s.receiver = .flagged → s.acceptor = .absent
  stopped : s.receiver = .stopped ∨ s.receiver = .acceptorReset ∨ s.receiver.Cleared →
    s.contextStopped = true
  receiver : s.mutex = some .receiver ↔ s.receiver = .locked ∨ s.receiver = .stopped ∨
    s.receiver = .acceptorReset ∨ s.receiver = .cleared
  acceptor : s.mutex = some .acceptor ↔ s.acceptor = .spawning ∨ ∃ k, s.acceptor = .joining k

theorem inv_init : Inv init := by
  constructor <;> simp [init, Receiver.Listening, Receiver.Cleared]

/-- A step of neither `receive_multi` nor its acceptor thread. -/
theorem Inv.frame {s t : State} (hs : Inv s) (hreceiver : t.receiver = s.receiver)
    (hacceptor : t.acceptor = s.acceptor) (hmutex : t.mutex = s.mutex)
    (hstopped : t.contextStopped = s.contextStopped)
    (hlistening : t.currentlyListening = s.currentlyListening) : Inv t := by
  constructor
  · rw [hlistening, hreceiver]
    exact hs.listening
  · rw [hreceiver, hacceptor]
    exact hs.early
  · rw [hreceiver, hstopped]
    exact hs.stopped
  · rw [hmutex, hreceiver]
    exact hs.receiver
  · rw [hmutex, hacceptor]
    exact hs.acceptor

/-- A step of the acceptor thread, which has been started. -/
theorem Inv.moveAcceptor {s t : State} (hs : Inv s) (hreceiver : t.receiver = s.receiver)
    (hstarted : s.acceptor ≠ .absent) (hstopped : t.contextStopped = s.contextStopped)
    (hlistening : t.currentlyListening = s.currentlyListening)
    (hmutex : t.mutex = some .receiver ↔ s.mutex = some .receiver)
    (howner : t.mutex = some .acceptor ↔ t.acceptor = .spawning ∨ ∃ k, t.acceptor = .joining k) :
    Inv t := by
  constructor
  · rw [hlistening, hreceiver]
    exact hs.listening
  · rw [hreceiver]
    intro h
    exact absurd (hs.early h) hstarted
  · rw [hreceiver, hstopped]
    exact hs.stopped
  · rw [hmutex, hreceiver]
    exact hs.receiver
  · exact howner

theorem inv_step (s : State) (a : Action) (t : State) (hs : Inv s) (h : step s a = some t) :
    Inv t := by
  have hacceptor := hs.acceptor
  cases a with
  | acceptFails | callSecondary k | secondaryReturns k | postErase k | shutdown | closeSocket |
    check =>
    simp only [step] at h
    repeat' split at h
    all_goals cases h
    all_goals exact hs.frame rfl rfl rfl rfl rfl
  | acceptHandler | acceptLock | spawn | eraseHandler | eraseLock | erase | runReturns =>
    simp only [step] at h
    repeat' split at h
    all_goals cases h
    all_goals
      refine hs.moveAcceptor rfl ?_ rfl rfl ?_ ?_
      all_goals simp_all
  | _ =>
    obtain ⟨hlistening, hearly, hstopped, hreceiver, _⟩ := hs
    simp only [step] at h
    split at h <;> cases h
    constructor
    all_goals simp_all [Receiver.Listening, Receiver.Cleared]

theorem cleared_of_not_listening {s : State} (hs : Inv s) (hflag : s.currentlyListening = false)
    (hentered : s.receiver ≠ .entered) : s.receiver.Cleared := by
  have hnot : ¬ s.receiver.Listening := by
    intro h
    simp [hs.listening.mpr h] at hflag
  cases hr : s.receiver <;> simp_all [Receiver.Listening, Receiver.Cleared]

structure Ordered (s : State) : Prop where
  inv : Inv s
  closed : s.closer = .returned → s.receiver.Cleared
  calm : s.receiver.Cleared → Calm s

theorem ordered_init : Ordered init := by
  refine ⟨inv_init, ?_, ?_⟩
  · intro h
    cases h
  · intro h
    simp [init, Receiver.Cleared] at h

theorem past_update {requests : Nat → Secondary} (h : ∀ k, (requests k).Past) (k : Nat)
    {r : Secondary} (hr : r.Past) (j : Nat) : (Function.update requests k r j).Past := by
  rcases eq_or_ne j k with rfl | hj
  · rw [Function.update_self]
    exact hr
  · rw [Function.update_of_ne hj]
    exact h j

/-- Once the context is stopped, calm is for good: no accept handler begins. -/
theorem calm_step {s t : State} {a : Action} (hs : Calm s) (hstopped : s.contextStopped = true)
    (h : step s a = some t) : Calm t := by
  obtain ⟨hrequests, haccepting, hspawning⟩ := hs
  cases a with
  | acceptHandler => simp [step, hstopped] at h
  | acceptLock => simp [step, haccepting] at h
  | spawn => simp [step, hspawning] at h
  | callSecondary k =>
    have hspawned : s.requests k ≠ .spawned := by
      intro hk
      simpa [hk, Secondary.Past] using hrequests k
    simp [step, hspawned] at h
  | secondaryReturns k =>
    simp only [step] at h
    split at h <;> cases h
    exact ⟨past_update hrequests k trivial, haccepting, hspawning⟩
  | postErase k =>
    simp only [step] at h
    split at h <;> cases h
    exact ⟨past_update hrequests k trivial, haccepting, hspawning⟩
  | erase =>
    simp only [step] at h
    repeat' split at h
    all_goals cases h
    exact ⟨past_update hrequests _ trivial, by simp, by simp⟩
  | _ =>
    simp only [step] at h
    repeat' split at h
    all_goals cases h
    all_goals exact ⟨hrequests, by simp_all, by simp_all⟩

theorem cleared_step {s t : State} {a : Action} (h : step s a = some t) :
    t.receiver.Cleared ↔ s.receiver.Cleared ∨ a = .clearFlag := by
  cases a <;> simp only [step] at h <;> (repeat' split at h) <;> cases h
  all_goals simp_all [Receiver.Cleared, State.setRequest]

theorem returned_step {s t : State} {a : Action} (h : step s a = some t)
    (ht : t.closer = .returned) :
    s.closer = .returned ∨ a = .check ∧ s.currentlyListening = false := by
  cases a <;> simp only [step] at h <;> (repeat' split at h) <;> cases h
  all_goals simp_all [State.setRequest]

theorem ordered_step (s : State) (a : Action) (t : State) (hs : Ordered s) (hgood : Orderly s a)
    (h : step s a = some t) : Ordered t := by
  obtain ⟨hinv, hclosed, hcalm⟩ := hs
  refine ⟨inv_step s a t hinv h, ?_, ?_⟩
  · intro ht
    apply (cleared_step h).mpr
    left
    rcases returned_step h ht with hr | ⟨rfl, hflag⟩
    · exact hclosed hr
    · exact cleared_of_not_listening hinv hflag hgood
  · intro ht
    rcases (cleared_step h).mp ht with hs | rfl
    · apply calm_step (hcalm hs) _ h
      exact hinv.stopped (.inr (.inr hs))
    · simp only [step] at h
      split at h <;> cases h
      exact ⟨hgood.requests, hgood.accepting, hgood.spawning⟩

theorem safe_of_ordered {s : State} (hs : Ordered s) : Safe s := by
  intro hr
  have hcleared := hs.closed hr
  constructor
  · intro h
    simp [h, Receiver.Cleared] at hcleared
  · intro k h
    have hpast := (hs.calm hcleared).requests k
    simp [h, Secondary.Past] at hpast

/-! ## Disorderly steps -/

theorem inv_run {as : List Action} {t : State} (h : run step init as = some t) : Inv t :=
  run_always inv_step inv_init h

theorem close_returns {s : State} (hflag : s.currentlyListening = false) :
    ∃ bs, run step s bs = some { s with closer := .returned } := by
  cases hc : s.closer with
  | idle => exact ⟨[.shutdown, .closeSocket, .check], by simp [run, step, hc, hflag]⟩
  | shutdown => exact ⟨[.closeSocket, .check], by simp [run, step, hc, hflag]⟩
  | closed => exact ⟨[.check], by simp [run, step, hc, hflag]⟩
  | returned => exact ⟨[], by rw [← hc]; rfl⟩

/-- Some continuation ends with a callback that executes after `close` has returned. -/
def Endangered (s : State) : Prop := ∃ bs u, run step s bs = some u ∧ ¬ Safe u

theorem Endangered.of_run {s t : State} {as : List Action} (h : run step s as = some t)
    (ht : Endangered t) : Endangered s := by
  obtain ⟨bs, u, hu, hsafe⟩ := ht
  exact ⟨as ++ bs, u, run_append_eq_some.mpr ⟨t, h, hu⟩, hsafe⟩

theorem endangered_of_callback {s : State} (hflag : s.currentlyListening = false) {k : Nat}
    (hk : s.requests k = .inCallback) : Endangered s := by
  obtain ⟨bs, hbs⟩ := close_returns hflag
  exact ⟨bs, _, hbs, fun hsafe => (hsafe rfl).2 k hk⟩

theorem endangered_of_request {s : State} (hflag : s.currentlyListening = false) {k : Nat}
    (hk : ¬ (s.requests k).Past) : Endangered s := by
  cases hr : s.requests k <;> simp only [hr, Secondary.Past, not_true, not_false_eq_true] at hk
  case inCallback => exact endangered_of_callback hflag hr
  case spawned =>
    have hcall : run step s [.callSecondary k] = some (s.setRequest k .inCallback) := by
      simp [run, step, hr]
    have hin : (s.setRequest k .inCallback).requests k = .inCallback := by simp [State.setRequest]
    apply Endangered.of_run hcall
    exact endangered_of_callback hflag hin

theorem endangered_of_accepting {s : State} (hflag : s.currentlyListening = false)
    (hcleared : s.receiver = .cleared) (haccepting : s.acceptor = .accepting) : Endangered s := by
  have hspawn : run step s [.unlock, .acceptLock, .spawn] = some
      { s.setRequest s.nextRequestId .spawned with
        receiver := .unlocked
        acceptor := .polling
        nextRequestId := s.nextRequestId + 1
        mutex := none
        armed := true } := by
    simp [run, step, hcleared, haccepting, State.setRequest]
  apply Endangered.of_run hspawn
  apply endangered_of_request (k := s.nextRequestId)
  · exact hflag
  · simp [State.setRequest, Secondary.Past]

theorem endangered_of_disorderly {s t : State} {a : Action} (hs : Inv s) (hbad : ¬ Orderly s a)
    (h : step s a = some t) : Endangered t := by
  cases a with
  | check =>
    have hentered : s.receiver = .entered := by_contra hbad
    have hflag : s.currentlyListening = false := by
      have := hs.listening
      simpa [hentered, Receiver.Listening] using this
    have ht : t = { s with closer := .returned } := by
      simp only [step] at h
      split at h <;> cases h
      simp [hflag]
    subst ht
    have hcall : run step { s with closer := .returned } [.setFlag, .setUp, .callPrimary] = some
        { s with
          receiver := .inPrimary
          acceptor := .polling
          armed := true
          currentlyListening := true
          closer := .returned } := by
      simp [run, step, hentered]
    exact ⟨_, _, hcall, fun hsafe => (hsafe rfl).1 rfl⟩
  | clearFlag =>
    simp only [step] at h
    split at h <;> cases h
    rename_i hreset
    by_cases hrequests : ∀ k, (s.requests k).Past
    · have hspawning : s.acceptor ≠ .spawning := by
        intro hsp
        have howner := hs.acceptor.mpr (.inl hsp)
        cases howner.symm.trans (hs.receiver.mpr (.inr (.inr (.inl hreset))))
      have haccepting : s.acceptor = .accepting := by
        by_contra hacc
        exact hbad ⟨hrequests, hacc, hspawning⟩
      exact endangered_of_accepting rfl rfl haccepting
    · obtain ⟨k, hk⟩ := not_forall.mp hrequests
      exact endangered_of_request rfl hk
  | _ => exact absurd trivial hbad

/-- In an orderly run no callback executes once `close` has returned, and whenever a step would
not be orderly some schedule from there on breaks this. -/
theorem close_waits {as : List Action} {t : State} (h : run step init as = some t) :
    (Meets step Orderly init as → Safe t) ∧
      ∀ a u, step t a = some u → ¬ Orderly t a → Endangered u := by
  constructor
  · intro hm
    apply safe_of_ordered
    exact run_invariant ordered_step ordered_init hm h
  · intro a u hu hbad
    exact endangered_of_disorderly (inv_run h) hbad hu

/-- A request has been served by the time the sockets are closed. -/
def served : List Action :=
  [.setFlag, .setUp, .callPrimary, .acceptHandler, .acceptLock, .spawn, .callSecondary 0,
    .secondaryReturns 0, .postErase 0, .shutdown, .closeSocket, .primaryThrows, .lock, .stop,
    .resetAcceptor, .clearFlag, .check]

theorem close_waits_served :
    ∃ t, run step init served = some t ∧ t.closer = .returned ∧ Safe t := by
  have hrun : (run step init served).map State.closer = some .returned := by decide +kernel
  obtain ⟨t, ht, hcloser⟩ := Option.map_eq_some_iff.mp hrun
  refine ⟨t, ht, hcloser, (close_waits ht).1 ?_⟩
  let f : Nat → Secondary := Function.update (fun _ => .absent) 0 .finished
  have habsent : ∀ k, ((fun _ => .absent : Nat → Secondary) k).Past := by
    intro _
    trivial
  have hpast : ∀ k, (f k).Past := past_update habsent 0 trivial
  have hcalm : Calm ⟨.acceptorReset, .polling, f, 1, some .receiver, [0], false, true, true, .closed⟩ :=
    ⟨hpast, by simp, by simp⟩
  simpa [Meets, served, step, init, Orderly, State.setRequest] using hcalm

def serving : List Action :=
  [.setFlag, .setUp, .callPrimary, .acceptHandler, .acceptLock, .spawn, .callSecondary 0,
    .shutdown, .closeSocket, .primaryThrows, .lock, .stop, .resetAcceptor, .clearFlag, .check]

theorem serving_unsafe : ¬ ∀ as t, run step init as = some t → Safe t := by
  intro hall
  have hrun : (run step init serving).map (fun t => (t.closer, t.requests 0)) =
      some (.returned, .inCallback) := by decide +kernel
  obtain ⟨t, ht, hend⟩ := Option.map_eq_some_iff.mp hrun
  obtain ⟨hcloser, hrequest⟩ := Prod.mk.inj hend
  exact (hall serving t ht hcloser).2 0 hrequest

end Wasivst.AdHocSocketHandler.Close
