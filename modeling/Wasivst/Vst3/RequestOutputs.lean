import Mathlib.Data.List.Chain
import Mathlib.Data.List.Induction
import Wasivst.Lib.Transition
import Wasivst.Vst3.ProcessData

/-!
# The outputs of a VST3 processing request

Any sequence of cycles over the one `YaProcessData` object of the native side. The response is
decoded into the fields that the next request sends, and `YaProcessData::repopulate` only creates
or drops them.
-/

set_option autoImplicit false

namespace Vst3
open InPlace

/-- The optionals of the output parameter changes and events, where they are there, hold nothing. -/
def YaProcessData.OutputsEmpty (d : YaProcessData) : Prop :=
  (∀ c ∈ d.output_parameter_changes_, c.queues_ = []) ∧ ∀ l ∈ d.output_events_, l.events_ = []

namespace PluginSide

/-- A cycle is a request followed by its response. A cycle whose response does not arrive ends
with the request. -/
inductive Step
  | request (process_data : ProcessData)
  | response (wine : YaProcessData)

/-- `process_data` is what the host passed to the call that waits for its response. -/
structure State where
  native : YaProcessData
  process_data : Option ProcessData
  requests : List YaProcessData

def init : State := ⟨.fresh, none, []⟩

variable (B : Bitsery) (shared : AudioShmBufferConfig)

def step (s : State) : Step → Option State
  | .request process_data => do
    let native ← s.native.repopulate process_data shared
    let _ ← (YaProcessData.serialize B).send native
    return ⟨native, some process_data, s.requests ++ [native]⟩
  | .response wine => do
    let process_data ← s.process_data
    let native ← (YaProcessData.Response.serialize B).transfer s.native wine
    let _ ← native.write_back_outputs process_data
    return ⟨native, none, s.requests⟩

/-- A request after a response that left outputs finds them, unless the host does not take such
outputs any more. -/
def Follows : Step → Step → Prop
  | .response wine, .request process_data =>
    (process_data.outputParameterChanges.isSome →
      ∀ c ∈ wine.output_parameter_changes_, c.queues_ = []) ∧
    (process_data.outputEvents.isSome → ∀ l ∈ wine.output_events_, l.events_ = [])
  | _, _ => True

variable {B shared}

theorem step_request_eq_some {s t : State} {host : ProcessData} :
    step B shared s (.request host) = some t ↔
      ∃ native, s.native.repopulate host shared = some native ∧
        (YaProcessData.serialize B).fits native ∧
        t = ⟨native, some host, s.requests ++ [native]⟩ := by
  simp only [step, Codec.send, Option.bind_eq_bind, Option.bind_eq_some_iff, Option.pure_def,
    Option.some.injEq]
  constructor
  · rintro ⟨native, hn, _, hsend, rfl⟩
    split_ifs at hsend with hfits
    exact ⟨native, hn, hfits, rfl⟩
  · rintro ⟨native, hn, hfits, rfl⟩
    exact ⟨native, hn, _, if_pos hfits, rfl⟩

theorem step_response_eq_some {s t : State} {wine : YaProcessData} :
    step B shared s (.response wine) = some t ↔
      ∃ host out, s.process_data = some host ∧ (YaProcessData.Response.serialize B).fits wine ∧
        ((YaProcessData.Response.serialize B).put s.native wine).write_back_outputs host =
          some out ∧
        t = ⟨(YaProcessData.Response.serialize B).put s.native wine, none, s.requests⟩ := by
  simp only [step, Option.bind_eq_bind, Option.bind_eq_some_iff, Codec.transfer_eq_some,
    Option.pure_def, Option.some.injEq]
  constructor
  · rintro ⟨host, hhost, _, ⟨hfits, rfl⟩, out, hout, rfl⟩
    exact ⟨host, out, hhost, hfits, hout, rfl⟩
  · rintro ⟨host, out, hhost, hfits, hout, rfl⟩
    exact ⟨host, hhost, _, ⟨hfits, rfl⟩, out, hout, rfl⟩

/-- What the object holds, as far as the last step says. -/
def Left (s : State) : Option Step → Prop
  | none => s.native = .fresh
  | some (.request _) => s.native ∈ s.requests
  | some (.response wine) =>
    s.native.output_parameter_changes_ = wine.output_parameter_changes_ ∧
      s.native.output_events_ = wine.output_events_

theorem left_of_step {s t : State} {a : Step} (h : step B shared s a = some t) :
    Left t (some a) := by
  cases a with
  | request host =>
    obtain ⟨native, _, _, rfl⟩ := step_request_eq_some.mp h
    exact List.mem_append_right _ (List.mem_singleton_self native)
  | response wine =>
    obtain ⟨_, _, _, _, _, rfl⟩ := step_response_eq_some.mp h
    rw [Left, YaProcessData.Response.serialize_put]
    exact ⟨rfl, rfl⟩

/-- A request is empty if what was left in the object is, on the interfaces that the host
passes. -/
theorem outputsEmpty_repopulate {d native : YaProcessData} {host : ProcessData}
    (h : d.repopulate host shared = some native) :
    native.OutputsEmpty ↔
      (host.outputParameterChanges.isSome → ∀ c ∈ d.output_parameter_changes_, c.queues_ = []) ∧
        (host.outputEvents.isSome → ∀ l ∈ d.output_events_, l.events_ = []) := by
  obtain ⟨_, rfl⟩ := YaProcessData.repopulate_eq_some.mp h
  unfold YaProcessData.OutputsEmpty
  apply and_congr
  · cases host.outputParameterChanges with
    | none => simp
    | some _ => cases d.output_parameter_changes_ <;> simp
  · cases host.outputEvents with
    | none => simp
    | some _ => cases d.output_events_ <;> simp

theorem outputsEmpty_request_iff {s : State} {last : Option Step} {host : ProcessData}
    {native : YaProcessData} (hleft : Left s last) (hs : ∀ r ∈ s.requests, r.OutputsEmpty)
    (h : s.native.repopulate host shared = some native) :
    native.OutputsEmpty ↔ ∀ b ∈ last, Follows b (.request host) := by
  rw [outputsEmpty_repopulate h]
  cases last with
  | none =>
    rw [Left] at hleft
    simp [hleft, YaProcessData.fresh]
  | some b =>
    cases b with
    | request _ =>
      have hempty := hs _ hleft
      simp only [Option.mem_def, Option.some.injEq, forall_eq', Follows, iff_true]
      exact ⟨fun _ => hempty.1, fun _ => hempty.2⟩
    | response wine =>
      obtain ⟨hchanges, hevents⟩ := hleft
      simp [Follows, hchanges, hevents]

theorem left_of_run {s : State} {as : List Step}
    (h : Transition.run (step B shared) init as = some s) : Left s as.getLast? := by
  induction as using List.reverseRecOn with
  | nil =>
    obtain rfl := Option.some.inj h
    rfl
  | append_singleton as a _ =>
    obtain ⟨t, _, hlast⟩ := Transition.run_append_eq_some.mp h
    obtain ⟨u, hu, hnil⟩ := Transition.run_cons_eq_some.mp hlast
    obtain rfl := Option.some.inj hnil
    rw [List.getLast?_concat]
    exact left_of_step hu

/-- Every request of a run goes out with empty outputs, exactly as long as the host passes no
interface for outputs of which the response before the request brought some. -/
theorem requests_outputsEmpty_iff {s : State} {as : List Step}
    (h : Transition.run (step B shared) init as = some s) :
    (∀ r ∈ s.requests, r.OutputsEmpty) ↔ as.IsChain Follows := by
  induction as using List.reverseRecOn generalizing s with
  | nil =>
    obtain rfl := Option.some.inj h
    simp [init]
  | append_singleton as a ih =>
    obtain ⟨t, hrun, hlast⟩ := Transition.run_append_eq_some.mp h
    obtain ⟨u, hu, hnil⟩ := Transition.run_cons_eq_some.mp hlast
    obtain rfl := Option.some.inj hnil
    have hleft := left_of_run hrun
    simp only [List.isChain_append, ← ih hrun, List.isChain_singleton, true_and,
      List.head?_cons, Option.mem_def, Option.some.injEq, forall_eq']
    cases a with
    | request host =>
      obtain ⟨native, hn, _, rfl⟩ := step_request_eq_some.mp hu
      rw [List.forall_mem_append, List.forall_mem_singleton]
      constructor
      · rintro ⟨hs, hnative⟩
        exact ⟨hs, (outputsEmpty_request_iff hleft hs hn).mp hnative⟩
      · rintro ⟨hs, hfollows⟩
        exact ⟨hs, (outputsEmpty_request_iff hleft hs hn).mpr hfollows⟩
    | response wine =>
      obtain ⟨_, _, _, _, _, rfl⟩ := step_response_eq_some.mp hu
      have hfollows : ∀ b, Follows b (.response wine) := by
        intro b
        cases b <;> trivial
      exact (and_iff_left fun b _ => hfollows b).symm

/-- A host without buses that takes parameter changes, and its plugin's response. -/
def takesChanges : ProcessData := ⟨0, 0, 0, [], [], none, some [], none, none, none⟩

def changed (queues : List YaParamValueQueue) : YaProcessData :=
  { YaProcessData.fresh with output_parameter_changes_ := some ⟨queues⟩ }

def twoCycles (queues : List YaParamValueQueue) : List Step :=
  [.request takesChanges, .response (changed queues), .request takesChanges]

theorem run_twoCycles (queues : List YaParamValueQueue)
    (h : YaParameterChanges.Bounded ⟨queues⟩) :
    Transition.run (step .default ⟨[], 0, [], []⟩) init (twoCycles queues) =
      some ⟨changed queues, some takesChanges, [changed [], changed queues]⟩ := by
  have hfits : ∀ qs, YaParameterChanges.Bounded ⟨qs⟩ →
      (YaProcessData.serialize .default).fits (changed qs) := by
    intro qs hqs
    rw [YaProcessData.serialize_fits]
    simpa [changed, YaProcessData.fresh, YaParameterChanges.Bounded] using hqs
  have hresponse : (YaProcessData.Response.serialize .default).fits (changed queues) := by
    rw [YaProcessData.Response.serialize_fits]
    simpa [changed, YaProcessData.fresh] using h
  have hnone : YaParameterChanges.Bounded ⟨[]⟩ := by simp [YaParameterChanges.Bounded]
  apply Transition.run_cons_eq_some.mpr
  refine ⟨_, step_request_eq_some.mpr ⟨changed [], rfl, hfits [] hnone, rfl⟩, ?_⟩
  apply Transition.run_cons_eq_some.mpr
  refine ⟨_, step_response_eq_some.mpr ⟨takesChanges, _, rfl, hresponse, rfl, rfl⟩, ?_⟩
  apply Transition.run_cons_eq_some.mpr
  refine ⟨_, step_request_eq_some.mpr ⟨changed queues, ?_, hfits queues h, rfl⟩, rfl⟩
  rw [YaProcessData.Response.serialize_put]
  rfl

theorem requests_outputsEmpty_without_queues : ∃ s,
    Transition.run (step .default ⟨[], 0, [], []⟩) init (twoCycles []) = some s ∧
      ∀ r ∈ s.requests, r.OutputsEmpty := by
  have hrun := run_twoCycles [] (by simp [YaParameterChanges.Bounded])
  refine ⟨_, hrun, (requests_outputsEmpty_iff hrun).mpr ?_⟩
  simp [twoCycles, Follows, changed, YaProcessData.fresh]

/-- The second request carries the queue of the first response. -/
theorem previous_queue_sent : ¬ ∀ (B : Bitsery) (shared : AudioShmBufferConfig) (as : List Step)
    (s : State), Transition.run (step B shared) init as = some s →
      ∀ r ∈ s.requests, r.OutputsEmpty := by
  intro h
  have hrun := run_twoCycles [⟨0, []⟩] (by simp [YaParameterChanges.Bounded])
  have hempty := h _ _ _ _ hrun (changed [⟨0, []⟩]) (by simp)
  exact List.cons_ne_nil _ _ (hempty.1 _ rfl)

end PluginSide
end Vst3
