import Wasivst.Client

/-!
# `WasivstProcessor`

The processor keeps at most one block for the next `process` call and writes it as far as the
output reaches. A session is any interleaving of port messages and `process` calls; deliveries
are numbered so that equal blocks are told apart. Samples are Numbers by their words. A NaN in the
output stands as the usual one, whichever word the engine stores.
-/

set_option autoImplicit false

namespace Wasivst
open Js

abbrev Audio := List (List UInt32)

inductive ProcessorMessage where
  | ready
  | process (channels : Audio)
  deriving DecidableEq

structure WasivstProcessor where
  ready : Bool
  pendingOutput : Option Audio
  posted : List ProcessorMessage

namespace WasivstProcessor

def init : WasivstProcessor := ⟨false, none, []⟩

def onMessage (p : WasivstProcessor) : PortMessage → WasivstProcessor
  | .ready => { p with ready := true, posted := p.posted ++ [.ready] }
  | .processResp channels => { p with pendingOutput := some channels }

/-- The inner loop: `output[c][i] = pending[c][i]` as far as both reach. -/
def writeChannel : List UInt32 → List UInt32 → List UInt32
  | x :: xs, _ :: ys => x :: writeChannel xs ys
  | _, ys => ys

def writeChannels : Audio → Audio → Audio
  | x :: xs, y :: ys => writeChannel x y :: writeChannels xs ys
  | _, ys => ys

/-- The processor after the call, and what is in `outputs[0]` then. `Array.from` reads the input. -/
def process (p : WasivstProcessor) (input output : Audio) : WasivstProcessor × Audio :=
  if p.ready then
    let p := { p with posted := p.posted ++ [ProcessorMessage.process (readBlock input)] }
    match p.pendingOutput with
    | some pending => ({ p with pendingOutput := none }, writeChannels pending output)
    | none => (p, output)
  else (p, output)

/-- Equal numbers of channels and samples. -/
def SameShape (x y : Audio) : Prop := x.map List.length = y.map List.length

theorem writeChannel_of_length {x y : List UInt32} (h : x.length = y.length) :
    writeChannel x y = x := by
  induction x generalizing y with
  | nil => rw [writeChannel, List.length_eq_zero_iff.mp h.symm]; simp
  | cons a x ih =>
    cases y with
    | nil => cases h
    | cons b y => rw [writeChannel, ih (by simpa using h)]

theorem writeChannels_of_sameShape {x y : Audio} (h : SameShape x y) : writeChannels x y = x := by
  unfold SameShape at h
  induction x generalizing y with
  | nil => rw [writeChannels, List.map_eq_nil_iff.mp h.symm]; simp
  | cons a x ih =>
    cases y with
    | nil => cases h
    | cons b y =>
      obtain ⟨hab, hxy⟩ := List.cons.inj h
      unfold writeChannels
      rw [writeChannel_of_length hab, ih hxy]

end WasivstProcessor

/-! ## Sessions -/

namespace Session
open WasivstProcessor

inductive Event where
  | message (m : PortMessage)
  | process (input output : Audio)

/-- A `process` call: the delivery that it has to write, if any, and the output before and after. -/
structure Call where
  delivery : Option Nat
  before : Audio
  after : Audio

/-- `slot` is the delivery that the next call has to write: the last one, unless a call has come
since. What the calls do to the output is up to the processor. -/
structure State where
  processor : WasivstProcessor
  deliveries : List Audio
  slot : Option Nat
  calls : List Call

def init : State := ⟨WasivstProcessor.init, [], none, []⟩

def step (s : State) : Event → State
  | .message .ready => { s with processor := s.processor.onMessage .ready }
  | .message (.processResp channels) =>
    { s with
      processor := s.processor.onMessage (.processResp channels)
      deliveries := s.deliveries ++ [channels]
      slot := some s.deliveries.length }
  | .process input output =>
    let (processor, after) := s.processor.process input output
    if s.processor.ready then
      { s with
        processor := processor
        slot := none
        calls := s.calls ++ [⟨s.slot, output, after⟩] }
    else { s with processor := processor, calls := s.calls ++ [⟨none, output, after⟩] }

def run (es : List Event) : State := es.foldl step init

def State.written (s : State) : List Nat := s.calls.filterMap Call.delivery

/-- A call writes the block that it has to write, and without one it leaves the output alone. -/
def Call.Writes (deliveries : List Audio) (c : Call) : Prop :=
  match c.delivery with
  | none => c.after = c.before
  | some n => ∃ b, deliveries[n]? = some b ∧ (SameShape b c.before → c.after = b)

theorem Call.Writes.grow {ds ds' : List Audio} {c : Call} (h : c.Writes ds) (hds : ds <+: ds') :
    c.Writes ds' := by
  unfold Call.Writes at h ⊢
  cases hc : c.delivery with
  | none => simpa only [hc] using h
  | some n =>
    simp only [hc] at h
    obtain ⟨b, hb, hafter⟩ := h
    obtain ⟨rest, rfl⟩ := hds
    refine ⟨b, ?_, hafter⟩
    rw [List.getElem?_append_left (List.getElem?_eq_some_iff.mp hb).1, hb]

/-- A call takes the block before another one comes. -/
def Taken : List Event → Bool
  | [] => false
  | .message .ready :: es => Taken es
  | .message (.processResp _) :: _ => false
  | .process _ _ :: _ => true

structure Inv (s : State) : Prop where
  slot : ∀ n, s.slot = some n → n < s.deliveries.length ∧ ∀ m ∈ s.written, m < n
  pending : s.processor.pendingOutput = s.slot.bind fun n => s.deliveries[n]?
  written_lt : ∀ n ∈ s.written, n < s.deliveries.length
  increasing : s.written.Pairwise (· < ·)
  outputs : ∀ c ∈ s.calls, c.Writes s.deliveries

theorem inv_init : Inv init := by
  constructor <;> simp [init, WasivstProcessor.init, State.written]

theorem inv_deliver {s : State} (hs : Inv s) (channels : Audio) :
    Inv (step s (.message (.processResp channels))) := by
  have hlen : (s.deliveries ++ [channels]).length = s.deliveries.length + 1 := by simp
  refine ⟨?_, ?_, ?_, hs.increasing, ?_⟩
  · intro n hn
    obtain rfl := Option.some.inj hn
    exact ⟨by simp only [step, hlen]; omega, hs.written_lt⟩
  · simp [step, onMessage]
  · intro n hn
    have := hs.written_lt n hn
    simp only [step, hlen]
    omega
  · intro c hc
    exact (hs.outputs c hc).grow (List.prefix_append _ _)

/-- A call before `ready`. -/
theorem step_process_of_not_ready {s : State} (h : s.processor.ready = false)
    (input output : Audio) : step s (.process input output) = { s with
      calls := s.calls ++ [⟨none, output, output⟩] } := by
  simp [step, WasivstProcessor.process, h]

theorem step_process_of_empty {s : State} (hs : Inv s) (hr : s.processor.ready = true)
    (hslot : s.slot = none) (input output : Audio) :
    step s (.process input output) = { s with
      processor := ⟨true, none, s.processor.posted ++ [.process (readBlock input)]⟩
      calls := s.calls ++ [⟨none, output, output⟩] } := by
  have hpend := hs.pending
  rw [hslot, Option.bind_none] at hpend
  simp [step, WasivstProcessor.process, hr, hpend, hslot]

theorem step_process_of_full {s : State} (hs : Inv s) (hr : s.processor.ready = true) {n : Nat}
    (hslot : s.slot = some n) (input output : Audio) :
    ∃ b, s.deliveries[n]? = some b ∧ step s (.process input output) = { s with
      processor := ⟨true, none, s.processor.posted ++ [.process (readBlock input)]⟩
      slot := none
      calls := s.calls ++ [⟨some n, output, writeChannels b output⟩] } := by
  have hpend := hs.pending
  have hget := List.getElem?_eq_getElem (hs.slot n hslot).1
  rw [hslot, Option.bind_some, hget] at hpend
  exact ⟨_, hget, by simp [step, WasivstProcessor.process, hr, hpend, hslot]⟩

/-- A call that has nothing to write. -/
theorem Inv.idle {s : State} (hs : Inv s) (p : WasivstProcessor)
    (hp : p.pendingOutput = s.processor.pendingOutput) (output : Audio) :
    Inv { s with processor := p, calls := s.calls ++ [⟨none, output, output⟩] } := by
  have hwritten : ∀ q : WasivstProcessor, State.written { s with
      processor := q, calls := s.calls ++ [⟨none, output, output⟩] } = s.written := by
    intro q
    simp [State.written]
  refine ⟨?_, hp.trans hs.pending, ?_, ?_, ?_⟩
  · rw [hwritten]
    exact hs.slot
  · rw [hwritten]
    exact hs.written_lt
  · rw [hwritten]
    exact hs.increasing
  · intro c hc
    rcases List.mem_append.mp hc with hc | hc
    · exact hs.outputs c hc
    · obtain rfl := List.mem_singleton.mp hc
      rfl

theorem inv_process {s : State} (hs : Inv s) (input output : Audio) :
    Inv (step s (.process input output)) := by
  cases hr : s.processor.ready with
  | false =>
    rw [step_process_of_not_ready hr]
    exact hs.idle s.processor rfl output
  | true =>
    cases hslot : s.slot with
    | none =>
      rw [step_process_of_empty hs hr hslot]
      apply hs.idle
      rw [hs.pending, hslot]
      rfl
    | some n =>
      obtain ⟨b, hb, heq⟩ := step_process_of_full hs hr hslot input output
      obtain ⟨hlt, hgt⟩ := hs.slot n hslot
      have hwritten : (step s (.process input output)).written = s.written ++ [n] := by
        rw [heq, State.written, List.filterMap_append]
        rfl
      refine ⟨?_, ?_, ?_, ?_, ?_⟩
      · rw [heq]
        intro m hm
        cases hm
      · rw [heq]
        rfl
      · rw [hwritten, heq]
        intro m hm
        rcases List.mem_append.mp hm with hm | hm
        · exact hs.written_lt m hm
        · exact List.mem_singleton.mp hm ▸ hlt
      · rw [hwritten]
        apply List.pairwise_append.mpr
        refine ⟨hs.increasing, List.pairwise_singleton _ _, ?_⟩
        intro m hm k hk
        exact List.mem_singleton.mp hk ▸ hgt m hm
      · rw [heq]
        intro c hc
        rcases List.mem_append.mp hc with hc | hc
        · exact hs.outputs c hc
        · obtain rfl := List.mem_singleton.mp hc
          exact ⟨b, hb, writeChannels_of_sameShape⟩

theorem inv_step {s : State} (hs : Inv s) (e : Event) : Inv (step s e) := by
  cases e with
  | message m =>
    cases m with
    | ready => exact ⟨hs.slot, hs.pending, hs.written_lt, hs.increasing, hs.outputs⟩
    | processResp channels => exact inv_deliver hs channels
  | process input output => exact inv_process hs input output

theorem inv_run (es : List Event) : Inv (run es) := by
  unfold run
  apply List.foldlRecOn
  · exact inv_init
  · intro s hs e _
    exact inv_step hs e

theorem ready_step {s : State} (h : s.processor.ready = true) (e : Event) :
    (step s e).processor.ready = true := by
  cases e with
  | message m => cases m <;> simp [step, onMessage, h]
  | process input output =>
    simp only [step, WasivstProcessor.process, h, if_true]
    split <;> simp

theorem ready_foldl {s : State} (h : s.processor.ready = true) (es : List Event) :
    (es.foldl step s).processor.ready = true := by
  induction es generalizing s with
  | nil => exact h
  | cons e es ih => exact ih (ready_step h e)

/-! ## The fate of a delivery -/

theorem deliveries_step (s : State) (e : Event) : s.deliveries <+: (step s e).deliveries := by
  cases e with
  | message m =>
    cases m with
    | ready => exact List.prefix_refl _
    | processResp channels => exact List.prefix_append _ _
  | process input output =>
    simp only [step]
    split <;> exact List.prefix_refl _

theorem deliveries_grow (s : State) (es : List Event) :
    s.deliveries <+: (es.foldl step s).deliveries := by
  induction es generalizing s with
  | nil => exact List.prefix_refl _
  | cons e es ih => exact (deliveries_step s e).trans (ih (step s e))

theorem left_step {s : State} (hs : Inv s) {n : Nat} (hn : n < s.deliveries.length)
    (hslot : s.slot ≠ some n) (e : Event) :
    n < (step s e).deliveries.length ∧ (step s e).slot ≠ some n ∧
      (step s e).written.count n = s.written.count n := by
  refine ⟨Nat.lt_of_lt_of_le hn (deliveries_step s e).length_le, ?_⟩
  cases e with
  | message m =>
    cases m with
    | ready => exact ⟨hslot, rfl⟩
    | processResp channels =>
      refine ⟨?_, rfl⟩
      intro h
      exact Nat.ne_of_gt hn (Option.some.inj h)
  | process input output =>
    cases hr : s.processor.ready with
    | false =>
      rw [step_process_of_not_ready hr]
      exact ⟨hslot, by simp [State.written]⟩
    | true =>
      cases hm : s.slot with
      | none =>
        rw [step_process_of_empty hs hr hm]
        exact ⟨by simp [hm], by simp [State.written]⟩
      | some m =>
        obtain ⟨b, _, heq⟩ := step_process_of_full hs hr hm input output
        have hne : m ≠ n := by
          intro h
          exact hslot (h ▸ hm)
        rw [heq]
        exact ⟨by simp, by simp [State.written, hne]⟩

theorem count_of_left {s : State} (hs : Inv s) {n : Nat} (hn : n < s.deliveries.length)
    (hslot : s.slot ≠ some n) (es : List Event) :
    (es.foldl step s).written.count n = s.written.count n := by
  induction es generalizing s with
  | nil => rfl
  | cons e es ih =>
    obtain ⟨hn', hslot', hcount⟩ := left_step hs hn hslot e
    rw [List.foldl_cons, ih (inv_step hs e) hn' hslot', hcount]

/-- A delivery in the slot is written once if a call takes it, and else never. -/
theorem count_of_slot {s : State} (hs : Inv s) (hr : s.processor.ready = true) {n : Nat}
    (hslot : s.slot = some n) (es : List Event) :
    (es.foldl step s).written.count n = if Taken es then 1 else 0 := by
  obtain ⟨hlt, hgt⟩ := hs.slot n hslot
  have hnone : s.written.count n = 0 :=
    List.count_eq_zero.mpr fun hmem => Nat.lt_irrefl n (hgt n hmem)
  induction es generalizing s with
  | nil => exact hnone
  | cons e es ih =>
    cases e with
    | message m =>
      cases m with
      | ready => exact ih (inv_step hs _) (ready_step hr _) hslot hlt hgt hnone
      | processResp channels =>
        have hleft : (step s (.message (.processResp channels))).slot ≠ some n :=
          fun h => Nat.ne_of_gt hlt (Option.some.inj h)
        have hlt' := Nat.lt_of_lt_of_le hlt
          (deliveries_step s (.message (.processResp channels))).length_le
        exact (count_of_left (inv_step hs _) hlt' hleft es).trans hnone
    | process input output =>
      obtain ⟨b, _, heq⟩ := step_process_of_full hs hr hslot input output
      have hcount := count_of_left (n := n) (inv_step hs (.process input output))
        (by rw [heq]; exact hlt) (by rw [heq]; simp) es
      rw [List.foldl_cons, hcount, heq]
      simp only [State.written, List.filterMap_append, List.count_append]
      simpa [Taken, State.written] using hnone

theorem run_append (es fs : List Event) : run (es ++ fs) = fs.foldl step (run es) :=
  List.foldl_append

theorem ready_of_mem (pre mid : List Event) :
    (run (pre ++ .message .ready :: mid)).processor.ready = true := by
  rw [run_append]
  exact ready_foldl rfl mid

theorem count_after_delivery {s : State} (hs : Inv s) (hr : s.processor.ready = true) (b : Audio)
    (post : List Event) :
    ((Event.message (.processResp b) :: post).foldl step s).written.count s.deliveries.length =
      if Taken post then 1 else 0 :=
  count_of_slot (inv_step hs _) (ready_step hr _) rfl post

/-- A block delivered after `ready` is written by one later call, if a call comes before the next
block, and never otherwise; blocks are written in the order of their deliveries, unchanged when
the shapes agree, and a call that finds no new block does nothing to the output. -/
theorem written_once (pre mid post : List Event) (b : Audio) :
    let s := run (pre ++ .message .ready :: mid)
    let t := run (pre ++ .message .ready :: mid ++ .message (.processResp b) :: post)
    t.deliveries[s.deliveries.length]? = some b ∧
      s.deliveries.length ∉ s.written ∧
      t.written.count s.deliveries.length = (if Taken post then 1 else 0) ∧
      t.written.Pairwise (· < ·) ∧
      ∀ c ∈ t.calls, c.Writes t.deliveries := by
  intro s t
  have hs : Inv s := inv_run _
  have ht : Inv t := inv_run _
  have htail : t = (Event.message (.processResp b) :: post).foldl step s := run_append _ _
  have hr : s.processor.ready = true := ready_of_mem pre mid
  refine ⟨?_, ?_, ?_, ht.increasing, ht.outputs⟩
  · have hpre : s.deliveries ++ [b] <+: t.deliveries := by
      rw [htail]
      exact deliveries_grow (step s (.message (.processResp b))) post
    obtain ⟨rest, hrest⟩ := hpre
    rw [← hrest]
    simp
  · intro hmem
    exact Nat.lt_irrefl _ (hs.written_lt _ hmem)
  · rw [htail]
    exact count_after_delivery hs hr b post

def Event.isProcess : Event → Bool
  | .process _ _ => true
  | .message _ => false

/-- A block that is delivered and an output that is offered have the lengths `shape`. -/
def Event.HasShape (shape : List Nat) : Event → Prop
  | .message .ready => True
  | .message (.processResp channels) => channels.map List.length = shape
  | .process _ output => output.map List.length = shape

/-- No number of later calls makes up for a second block that comes before the first of them. -/
theorem overwritten_lost : ¬ ∃ calls, ∀ shape pre mid post b,
    (∀ e ∈ pre ++ mid ++ .message (.processResp b) :: post, Event.HasShape shape e) →
    calls ≤ post.countP Event.isProcess →
      (run (pre ++ .message .ready :: mid ++ .message (.processResp b) :: post)).written.count
        (run (pre ++ .message .ready :: mid)).deliveries.length = 1 := by
  rintro ⟨calls, h⟩
  have hshape : ∀ e ∈ [] ++ [] ++ Event.message (.processResp [[2]]) ::
      .message (.processResp [[1]]) :: List.replicate calls (.process [] [[0]]),
      Event.HasShape [1] e := by
    intro e he
    simp only [List.nil_append, List.mem_cons] at he
    rcases he with rfl | rfl | he
    · rfl
    · rfl
    · rw [List.eq_of_mem_replicate he]
      rfl
  have hlost := h [1] [] [] _ [[2]] hshape (by simp [List.countP_replicate, Event.isProcess])
  have hcount := count_after_delivery (inv_run _) (ready_of_mem [] []) [[2]]
    (.message (.processResp [[1]]) :: List.replicate calls (.process [] [[0]]))
  rw [← run_append] at hcount
  exact absurd (hlost.symm.trans hcount) (by simp [Taken])

end Session
end Wasivst
