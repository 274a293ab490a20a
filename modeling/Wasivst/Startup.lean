import Wasivst.Client
import Wasivst.HostStream

/-!
# The start-up handshake of `#startV86`

After LOAD has been sent a timer polls `#rxBuf` and posts `ready` when it finds a byte in it;
the listener drains the same buffer as soon as a frame is complete. The guest's stream is any
sequence of segments, and bytes and polls come in any order.
-/

set_option autoImplicit false

namespace Wasivst
open Framing

namespace Startup
open HostStream WasiVST

/-- How many bytes had arrived when the poll ran, and whether `ready` was posted at its end. -/
structure Poll where
  received : Nat
  ready : Bool
  deriving DecidableEq

/-- `waiting` says that the promise around `check` is not resolved yet. -/
structure State where
  client : Client
  received : List UInt8
  line : List UInt8
  waiting : Bool
  polls : List Poll

inductive Action where
  | arrive
  | poll

def start (segs : List Segment) : State := ⟨Client.init, [], stream segs, true, []⟩

/-- Nothing arrives from an empty line, and no timer is set once the promise is resolved. -/
def step (s : State) : Action → State
  | .arrive =>
    match s.line with
    | [] => s
    | b :: rest =>
      { s with client := s.client.onByte b, received := s.received ++ [b], line := rest }
  | .poll =>
    if s.waiting then
      let (client, resolved) := s.client.check
      { s with
        client := client
        waiting := !resolved
        polls := s.polls ++ [⟨s.received.length, client.port.contains .ready⟩] }
    else s

def run (segs : List Segment) (as : List Action) : State := as.foldl step (start segs)

/-- One of the first `n` bytes is the last one of a frame. -/
def FrameArrived (segs : List Segment) (n : Nat) : Prop :=
  ∃ pre w h post, segs = pre ++ .frame w h :: post ∧
    (stream (pre ++ [.frame w h])).length ≤ n

/-- The first `n` bytes end inside a segment: some of its bytes are there, and some are not. -/
def Inside (segs : List Segment) (n : Nat) : Prop :=
  ∃ pre k post, segs = pre ++ k :: post ∧ (stream pre).length < n ∧
    n < (stream (pre ++ [k])).length

/-- Every poll that runs after a complete frame has arrived leaves `ready` posted. -/
def NeverMissed (segs : List Segment) (s : State) : Prop :=
  ∀ p ∈ s.polls, FrameArrived segs p.received → p.ready = true

/-! ## The buffer at a poll -/

theorem stream_append (xs ys : List Segment) : stream (xs ++ ys) = stream xs ++ stream ys :=
  List.flatMap_append

theorem stream_snoc_length (xs : List Segment) (k : Segment) :
    (stream (xs ++ [k])).length = (stream xs).length + k.bytes.length := by
  rw [stream_append, List.length_append]
  simp [stream]

theorem stream_length_le {xs ys : List Segment} (h : xs <+: ys) :
    (stream xs).length ≤ (stream ys).length := by
  obtain ⟨zs, rfl⟩ := h
  rw [stream_append, List.length_append]
  exact Nat.le_add_right _ _

theorem not_inside_boundary {segs pre : List Segment} (hpre : pre <+: segs) :
    ¬ Inside segs (stream pre).length := by
  rintro ⟨pre', k, post, rfl, hlo, hhi⟩
  have hk : pre' ++ [k] <+: pre' ++ k :: post := ⟨post, by simp⟩
  rcases List.prefix_or_prefix_of_prefix hpre hk with h | h
  · rcases List.prefix_concat_iff.mp h with rfl | h
    · exact Nat.lt_irrefl _ hhi
    · have := stream_length_le h
      omega
  · have := stream_length_le h
    omega

theorem rest_ne_nil_iff {segs : List Segment} {p : List UInt8} (hp : p <+: stream segs) :
    (receiveAll [] p).rest ≠ [] ↔ Inside segs p.length := by
  have hne : ∀ k ∈ segs, Segment.bytes k ≠ [] := by
    intro k _
    exact k.chunk.nonempty
  obtain ⟨pre, post, rfl, hcase⟩ := prefix_flatMap Segment.bytes hne hp
  rcases hcase with rfl | ⟨k, rest, q, rfl, rfl, hq, hq0, hqk⟩
  · have hrest := (feedAll_stream Segment.bytes Segment.received (fun x (_ : x ∈ pre) => x.chunk)
      (fun x _ => x.bytes_lt)).2
    exact iff_of_false (fun h => h hrest) (not_inside_boundary (List.prefix_append pre post))
  · have hk := k.bytes_lt
    have hle := hq.length_le
    have hlt : q.length ≠ k.bytes.length := by
      intro h
      exact hqk (hq.eq_of_length h)
    have hpos := List.length_pos_iff.mpr hq0
    have hpart := (feedAll_stream_part Segment.bytes Segment.received
      (fun x (_ : x ∈ pre) => x.chunk) (fun x _ => x.bytes_lt) k.chunk (by omega) hq hqk).2
    have hlen : (pre.flatMap Segment.bytes ++ q).length = (stream pre).length + q.length :=
      List.length_append
    refine iff_of_true (fun h => hq0 (hpart.symm.trans h)) ⟨pre, k, rest, rfl, ?_, ?_⟩
    · omega
    · rw [stream_snoc_length]
      omega

/-! ## Runs -/

structure Inv (segs : List Segment) (s : State) : Prop where
  line : s.received ++ s.line = stream segs
  buffer : s.client.rxBuf = (receiveAll [] s.received).rest
  waiting : s.waiting = true → PortMessage.ready ∉ s.client.port
  polls : ∀ p ∈ s.polls, p.ready = true ↔ Inside segs p.received

variable {segs : List Segment}

theorem inv_start : Inv segs (start segs) := by
  refine ⟨rfl, rfl, fun _ => List.not_mem_nil, ?_⟩
  intro p hp
  cases hp

theorem ready_mem_dispatch (c : Client) (d : Dispatched) :
    PortMessage.ready ∈ (c.dispatch d).port ↔ PortMessage.ready ∈ c.port := by
  cases d <;> simp [Client.dispatch, Client.resolve]

theorem ready_mem_foldl (c : Client) (ds : List Dispatched) :
    PortMessage.ready ∈ (ds.foldl Client.dispatch c).port ↔ PortMessage.ready ∈ c.port := by
  induction ds generalizing c with
  | nil => rfl
  | cons d ds ih => rw [List.foldl_cons, ih, ready_mem_dispatch]

theorem ready_mem_onByte (c : Client) (b : UInt8) :
    PortMessage.ready ∈ (c.onByte b).port ↔ PortMessage.ready ∈ c.port :=
  ready_mem_foldl _ _

theorem inv_arrive {s : State} (hs : Inv segs s) : Inv segs (step s .arrive) := by
  simp only [step]
  cases hline : s.line with
  | nil => exact hs
  | cons b rest =>
    refine ⟨?_, ?_, ?_, hs.polls⟩
    · rw [← hs.line, hline, List.append_assoc]
      rfl
    · have hrest := congrArg Drained.rest (@feedAll_snoc _ _ scan arrayCap [] s.received b)
      rw [Client.onByte_rxBuf, hs.buffer]
      exact hrest.symm
    · intro hw
      rw [ready_mem_onByte]
      exact hs.waiting hw

theorem inv_poll {s : State} (hs : Inv segs s) : Inv segs (step s .poll) := by
  have hprefix : s.received <+: stream segs := ⟨s.line, hs.line⟩
  have hinside := rest_ne_nil_iff hprefix
  rw [← hs.buffer] at hinside
  simp only [step]
  split
  · rename_i hw
    have hready := hs.waiting hw
    rw [Client.check]
    split
    · rename_i hpos
      refine ⟨hs.line, hs.buffer, by simp, ?_⟩
      intro p hp
      rcases List.mem_append.mp hp with hp | hp
      · exact hs.polls p hp
      · obtain rfl := List.mem_singleton.mp hp
        exact iff_of_true (by simp) (hinside.mp (List.length_pos_iff.mp hpos))
    · rename_i hpos
      refine ⟨hs.line, hs.buffer, fun _ => hready, ?_⟩
      intro p hp
      rcases List.mem_append.mp hp with hp | hp
      · exact hs.polls p hp
      · obtain rfl := List.mem_singleton.mp hp
        apply iff_of_false (by simpa using hready)
        intro h
        exact hpos (List.length_pos_iff.mpr (hinside.mpr h))
  · exact hs

theorem inv_step {s : State} (hs : Inv segs s) (a : Action) : Inv segs (step s a) := by
  cases a with
  | arrive => exact inv_arrive hs
  | poll => exact inv_poll hs

theorem inv_run (segs : List Segment) (as : List Action) : Inv segs (run segs as) := by
  unfold run
  apply List.foldlRecOn
  · exact inv_start
  · intro s hs a _
    exact inv_step hs a

/-- Readiness is missed by every poll that finds only complete frames behind it. -/
theorem neverMissed_iff (segs : List Segment) (as : List Action) :
    NeverMissed segs (run segs as) ↔
      ∀ p ∈ (run segs as).polls, FrameArrived segs p.received → Inside segs p.received := by
  have hpolls := (inv_run segs as).polls
  constructor
  · intro h p hp hf
    exact (hpolls p hp).mp (h p hp hf)
  · intro h p hp hf
    exact (hpolls p hp).mpr (h p hp hf)

/-- The start-up LOG frame arrives, and only then the timer fires. -/
def quiet : List Action := List.replicate startupLog.bytes.length .arrive ++ [.poll]

theorem quiet_polls : (run [.frame startupLog (by decide)] quiet).polls = [⟨46, false⟩] := by
  decide +kernel

theorem quiet_missed : ¬ ∀ segs as, NeverMissed segs (run segs as) := by
  intro hall
  have hpoll := hall [.frame startupLog (by decide)] quiet ⟨46, false⟩ (by rw [quiet_polls]; simp)
  have harrived : FrameArrived [.frame startupLog (by decide)] 46 :=
    ⟨[], startupLog, by decide, [], rfl, by decide⟩
  exact absurd (hpoll harrived) (by decide)

end Startup
end Wasivst
