import Wasivst.Lib.Transition

/-!
# A sequential machine behind two queues

Requests reach the machine through one queue and what it puts out comes back through another,
after a greeting. Sending, serving and receiving happen in any order. However they do, what has
been received is a prefix of what the machine puts out when it is asked the same requests with
nothing between, and all of it once the queues are empty.
-/

set_option autoImplicit false

namespace Remote
open Transition

variable {σ α β : Type}

def after (step : σ → α → σ × List β) (s : σ) (as : List α) : σ := as.foldl (fun s a => (step s a).1) s

def outputs (step : σ → α → σ × List β) : σ → List α → List β
  | _, [] => []
  | s, a :: as => (step s a).2 ++ outputs step (step s a).1 as

section Machine
variable (step : σ → α → σ × List β)

theorem after_snoc (s : σ) (as : List α) (a : α) :
    after step s (as ++ [a]) = (step (after step s as) a).1 := by
  unfold after
  rw [List.foldl_append]
  rfl

theorem outputs_append (s : σ) (as bs : List α) :
    outputs step s (as ++ bs) = outputs step s as ++ outputs step (after step s as) bs := by
  induction as generalizing s with
  | nil => rfl
  | cons a as ih =>
    simp only [List.cons_append, outputs, ih, List.append_assoc]
    rfl

theorem outputs_snoc (s : σ) (as : List α) (a : α) :
    outputs step s (as ++ [a]) = outputs step s as ++ (step (after step s as) a).2 := by
  rw [outputs_append]
  simp [outputs]

theorem outputs_mono (s : σ) {as bs : List α} (h : as <+: bs) :
    outputs step s as <+: outputs step s bs := by
  obtain ⟨cs, rfl⟩ := h
  rw [outputs_append]
  exact List.prefix_append _ _

end Machine

/-! ## The queues -/

/-- `sent` and `received` are histories. -/
structure State (σ α β : Type) where
  sent : List α
  requests : List α
  current : σ
  replies : List β
  received : List β

inductive Action (α : Type) where
  | send (a : α)
  | serve
  | receive

variable (machine : σ → α → σ × List β)

def step (s : State σ α β) : Action α → Option (State σ α β)
  | .send a => some { s with sent := s.sent ++ [a], requests := s.requests ++ [a] }
  | .serve =>
    match s.requests with
    | [] => none
    | a :: as =>
      some { s with
        requests := as
        current := (machine s.current a).1
        replies := s.replies ++ (machine s.current a).2 }
  | .receive =>
    match s.replies with
    | [] => none
    | b :: bs => some { s with replies := bs, received := s.received ++ [b] }

def init (start : σ) (greeting : List β) : State σ α β := ⟨[], [], start, greeting, []⟩

/-- The machine has seen all that was sent but the requests under way, and what it put out then is
received or under way. -/
structure Served (start : σ) (greeting : List β) (served : List α) (s : State σ α β) : Prop where
  sent : s.sent = served ++ s.requests
  current : s.current = after machine start served
  replies : s.received ++ s.replies = greeting ++ outputs machine start served

def Inv (start : σ) (greeting : List β) (s : State σ α β) : Prop :=
  ∃ served, Served machine start greeting served s

variable {machine} {start : σ} {greeting : List β}

theorem inv_init : Inv machine start greeting (init start greeting : State σ α β) := by
  refine ⟨[], rfl, rfl, ?_⟩
  simp [init, outputs]

theorem inv_step (s : State σ α β) (a : Action α) (t : State σ α β)
    (hs : Inv machine start greeting s) (h : step machine s a = some t) :
    Inv machine start greeting t := by
  obtain ⟨served, hsent, hcurrent, hreplies⟩ := hs
  cases a with
  | send a =>
    cases h
    refine ⟨served, ?_, hcurrent, hreplies⟩
    simp only [hsent, List.append_assoc]
  | serve =>
    cases hr : s.requests with
    | nil => simp [step, hr] at h
    | cons a as =>
      simp only [step, hr] at h
      cases h
      refine ⟨served ++ [a], ?_, ?_, ?_⟩
      · simp [hsent, hr]
      · rw [after_snoc, ← hcurrent]
      · rw [outputs_snoc, ← hcurrent, ← List.append_assoc, ← List.append_assoc, hreplies]
  | receive =>
    cases hr : s.replies with
    | nil => simp [step, hr] at h
    | cons b bs =>
      simp only [step, hr] at h
      cases h
      refine ⟨served, hsent, hcurrent, ?_⟩
      rw [← hreplies, hr]
      simp

theorem received_prefix {s : State σ α β} (hs : Inv machine start greeting s) :
    s.received <+: greeting ++ outputs machine start s.sent := by
  obtain ⟨served, hsent, _, hreplies⟩ := hs
  have hserved : served <+: s.sent := ⟨s.requests, hsent.symm⟩
  have hall : s.received ++ s.replies <+: greeting ++ outputs machine start s.sent := by
    rw [hreplies]
    exact (List.prefix_append_right_inj greeting).mpr (outputs_mono machine start hserved)
  exact (List.prefix_append _ _).trans hall

theorem received_of_empty {s : State σ α β} (hs : Inv machine start greeting s)
    (hrequests : s.requests = []) (hreplies : s.replies = []) :
    s.received = greeting ++ outputs machine start s.sent := by
  obtain ⟨served, hsent, _, hall⟩ := hs
  rw [hrequests, List.append_nil] at hsent
  rw [hreplies, List.append_nil] at hall
  rw [hall, hsent]

end Remote
