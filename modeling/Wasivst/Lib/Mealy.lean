import Mathlib.Data.List.Basic

/-!
# Machines with outputs

A machine answers each input with one output. An implementation of it may fail, and has a state of
its own that shows the state of the machine. If it answers like the machine as long as a condition
on the inputs is met, then it does so over whole runs.
-/

set_option autoImplicit false

namespace Mealy
variable {σ β ι ο : Type}

def run (step : σ → ι → σ × ο) : σ → List ι → σ × List ο
  | s, [] => (s, [])
  | s, i :: is =>
    let (t, o) := step s i
    let (u, os) := run step t is
    (u, o :: os)

/-- A run that ends at the first failure. -/
def tryRun (step : β → ι → Option (β × ο)) : β → List ι → Option (β × List ο)
  | b, [] => some (b, [])
  | b, i :: is => do
    let (b, o) ← step b i
    let (b, os) ← tryRun step b is
    return (b, o :: os)

/-- Each input is allowed in the state in which it comes. -/
def Along (step : σ → ι → σ × ο) (Allowed : σ → ι → Prop) : σ → List ι → Prop
  | _, [] => True
  | s, i :: is => Allowed s i ∧ Along step Allowed (step s i).1 is

/-- A step of the implementation from a state that is ready. -/
def Implements (step : σ → ι → σ × ο) (step' : β → ι → Option (β × ο)) (shows : β → σ)
    (Ready : β → Prop) (Allowed : σ → ι → Prop) : Prop :=
  ∀ b i, Ready b → Allowed (shows b) i → ∃ b', step' b i = some (b', (step (shows b) i).2) ∧
    shows b' = (step (shows b) i).1 ∧ Ready b'

variable {step : σ → ι → σ × ο} {step' : β → ι → Option (β × ο)} {shows : β → σ} {Ready : β → Prop}
variable {Allowed : σ → ι → Prop}

theorem Implements.tryRun (h : Implements step step' shows Ready Allowed) {b : β} (hb : Ready b)
    {is : List ι} (his : Along step Allowed (shows b) is) :
    (Mealy.tryRun step' b is).map (fun r => (shows r.1, r.2)) =
      some (run step (shows b) is) := by
  induction is generalizing b with
  | nil => rfl
  | cons i is ih =>
    obtain ⟨hi, his⟩ := his
    obtain ⟨b', hstep, hshows, hb'⟩ := h b i hb hi
    rw [← hshows] at his
    obtain ⟨⟨b'', os⟩, hrun, heq⟩ := Option.map_eq_some_iff.mp (ih hb' his)
    simp only [Mealy.tryRun, run, hstep, hrun, Option.bind_eq_bind, Option.bind_some,
      Option.pure_def, Option.map_some, ← hshows, ← heq]

end Mealy
