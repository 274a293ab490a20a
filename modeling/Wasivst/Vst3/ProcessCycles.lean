import Wasivst.Vst3.ProcessData

/-!
# VST3 processing cycles

Any number of cycles over one pair of `YaProcessData` objects, one on the native side and one on
the Wine side. The plugin is any function that adds queues and events to the data that it is
given; what the host receives is compared with what the plugin added.
-/

set_option autoImplicit false

namespace Vst3
open InPlace

/-- One thing that a plugin adds. -/
inductive Output
  | queue (queue : ParamValueQueue)
  | event (event : Event)

namespace Output

def queue? : Output → Option ParamValueQueue
  | queue q => some q
  | event _ => none

def event? : Output → Option Event
  | queue _ => none
  | event e => some e

end Output

/-- The host's data and the plugin of one cycle. -/
structure Cycle where
  host : ProcessData
  plugin : ProcessData → List Output
  known : ∀ data, ∀ e ∈ (plugin data).filterMap Output.event?, e.Known

/-- The shared buffers of the native side, and the pointers to them on the Wine side. -/
structure Setup where
  shared : AudioShmBufferConfig
  input_pointers : List UInt64
  output_pointers : List UInt64

/-- Nothing can be added to an interface that is a null pointer. -/
def YaProcessData.add (d : YaProcessData) : Output → YaProcessData
  | .queue q => { d with output_parameter_changes_ := d.output_parameter_changes_.map (·.addQueue q) }
  | .event e => { d with output_events_ := d.output_events_.map (·.addEvent e) }

/-- The native object, the Wine object and the data for the plugin. -/
def request (B : Bitsery) (setup : Setup) (native wine : YaProcessData) (host : ProcessData) :
    Option (YaProcessData × YaProcessData × ProcessData) := do
  let native ← native.repopulate host setup.shared
  let wine ← (YaProcessData.serialize B).transfer wine native
  let (wine, data) ← wine.reconstruct setup.input_pointers setup.output_pointers
  return (native, wine, data)

/-- The native object and the data of the host. -/
def respond (B : Bitsery) (native wine : YaProcessData) (host : ProcessData) :
    Option (YaProcessData × ProcessData) := do
  let native ← (YaProcessData.Response.serialize B).transfer native wine
  let host ← native.write_back_outputs host
  return (native, host)

structure CycleResult where
  native : YaProcessData
  wine : YaProcessData
  added : List Output
  host : ProcessData

def Cycle.process (B : Bitsery) (setup : Setup) (native wine : YaProcessData) (c : Cycle) :
    Option CycleResult := do
  let (native, wine, data) ← request B setup native wine c.host
  let added := c.plugin data
  let wine := added.foldl YaProcessData.add wine
  let (native, host) ← respond B native wine c.host
  return { native, wine, added, host }

/-- On each interface that the host passed, what the plugin added and nothing else. -/
def Cycle.Received (c : Cycle) (r : CycleResult) : Prop :=
  r.host.outputParameterChanges =
      c.host.outputParameterChanges.map (· ++ r.added.filterMap Output.queue?) ∧
    r.host.outputEvents = c.host.outputEvents.map (· ++ r.added.filterMap Output.event?)

/-- Every cycle is completed, and the host has received its outputs then. -/
def OutputsReceived (B : Bitsery) (setup : Setup) :
    YaProcessData → YaProcessData → List Cycle → Prop
  | _, _, [] => True
  | native, wine, c :: cs => ∃ r, c.process B setup native wine = some r ∧ c.Received r ∧
      OutputsReceived B setup r.native r.wine cs

/-! ## Bounds -/

/-- The maxima of the serializers for parameter changes. -/
def QueuesBounded (qs : List ParamValueQueue) : Prop :=
  qs.length ≤ 2 ^ 16 ∧ ∀ q ∈ qs, q.points.length ≤ 2 ^ 16

def EventsBounded (es : List Event) : Prop :=
  es.length ≤ 2 ^ 16 ∧ ∀ e ∈ es, (YaEvent.ofEvent e).payload.Bounded

/-- The number of buses is within the maximum and within what was set up on both sides. -/
structure BusesBounded (bs : List AudioBusBuffers) (offsets : List (List UInt32))
    (pointers : List UInt64) : Prop where
  sent : bs.length ≤ max_num_speakers
  shared : bs.length ≤ offsets.length
  pointers : bs.length ≤ pointers.length

structure ProcessData.Bounded (h : ProcessData) (setup : Setup) : Prop where
  inputs : BusesBounded h.inputs setup.shared.input_offsets setup.input_pointers
  outputs : BusesBounded h.outputs setup.shared.output_offsets setup.output_pointers
  parameterChanges : ∀ qs ∈ h.inputParameterChanges, QueuesBounded qs
  events : ∀ es ∈ h.inputEvents, EventsBounded es

/-- What a plugin is given for the data of the host. -/
def ProcessData.seen (h : ProcessData) (setup : Setup) : ProcessData :=
  { h with
    inputs := setPointers (busMetadata [] setup.shared.input_offsets h.inputs)
      setup.input_pointers
    outputs := setPointers (busMetadata [] setup.shared.output_offsets h.outputs)
      setup.output_pointers
    inputParameterChanges := some (h.inputParameterChanges.getD [])
    outputParameterChanges := h.outputParameterChanges.map fun _ => []
    inputEvents := h.inputEvents.map fun es => es.map fun e => (YaEvent.ofEvent e).get
    outputEvents := h.outputEvents.map fun _ => [] }

structure Cycle.Bounded (c : Cycle) (setup : Setup) : Prop where
  host : c.host.Bounded setup
  parameterChanges : c.host.outputParameterChanges.isSome →
    QueuesBounded ((c.plugin (c.host.seen setup)).filterMap Output.queue?)
  events : c.host.outputEvents.isSome →
    EventsBounded ((c.plugin (c.host.seen setup)).filterMap Output.event?)

theorem queuesBounded_iff (qs : List ParamValueQueue) :
    YaParameterChanges.Bounded ⟨qs.map YaParameterChanges.ofQueue⟩ ↔ QueuesBounded qs := by
  simp [YaParameterChanges.Bounded, QueuesBounded, YaParameterChanges.ofQueue]

theorem eventsBounded_iff (es : List Event) :
    YaEventList.Bounded ⟨es.map YaEvent.ofEvent⟩ ↔ EventsBounded es := by
  simp [YaEventList.Bounded, EventsBounded]

/-! ## The request -/

/-- What an object holds of an earlier response can be sent. -/
structure YaProcessData.Sendable (d : YaProcessData) : Prop where
  parameterChanges : ∀ c ∈ d.output_parameter_changes_, c.Bounded
  events : ∀ l ∈ d.output_events_, l.Bounded

theorem YaProcessData.sendable_fresh : YaProcessData.fresh.Sendable :=
  ⟨fun _ h => (Option.not_mem_none _ h).elim, fun _ h => (Option.not_mem_none _ h).elim⟩

variable {B : Bitsery} {setup : Setup} {native wine : YaProcessData}

/-- What the two objects are like when the plugin is called. -/
structure Requested (host : ProcessData) (setup : Setup) (native wine : YaProcessData)
    (data : ProcessData) : Prop where
  data : data = host.seen setup
  native_outputs : native.outputs_.length = host.outputs.length
  outputs : wine.outputs_.length = host.outputs.length
  parameterChanges : wine.output_parameter_changes_ = host.outputParameterChanges.map fun _ => ⟨[]⟩
  events : wine.output_events_ = host.outputEvents.map fun _ => ⟨[]⟩

theorem repopulate_fits (hs : native.Sendable) {host : ProcessData} {d : YaProcessData}
    (h : native.repopulate host setup.shared = some d) :
    (YaProcessData.serialize B).fits d ↔
      host.inputs.length ≤ max_num_speakers ∧ host.outputs.length ≤ max_num_speakers ∧
        (∀ qs ∈ host.inputParameterChanges, QueuesBounded qs) ∧
        ∀ es ∈ host.inputEvents, EventsBounded es := by
  have hchanges : ∀ c ∈ host.outputParameterChanges.map fun _ =>
      native.output_parameter_changes_.getD ⟨[]⟩, c.Bounded := by
    intro c hc
    obtain ⟨_, _, rfl⟩ := Option.mem_map.mp hc
    cases hold : native.output_parameter_changes_ with
    | none => exact ⟨Nat.zero_le _, fun _ hq => (List.not_mem_nil hq).elim⟩
    | some c => exact hs.parameterChanges c hold
  have hevents : ∀ l ∈ host.outputEvents.map fun _ => native.output_events_.getD ⟨[]⟩,
      l.Bounded := by
    intro l hl
    obtain ⟨_, _, rfl⟩ := Option.mem_map.mp hl
    cases hold : native.output_events_ with
    | none => exact ⟨Nat.zero_le _, fun _ he => (List.not_mem_nil he).elim⟩
    | some l => exact hs.events l hold
  have hin : QueuesBounded (host.inputParameterChanges.getD []) ↔
      ∀ qs ∈ host.inputParameterChanges, QueuesBounded qs := by
    cases host.inputParameterChanges with
    | none => simp [QueuesBounded]
    | some qs => simp
  have hev : (∀ l ∈ host.inputEvents.map fun events =>
      (⟨events.map YaEvent.ofEvent⟩ : YaEventList), l.Bounded) ↔
      ∀ es ∈ host.inputEvents, EventsBounded es := by
    simp [eventsBounded_iff]
  obtain ⟨_, rfl⟩ := YaProcessData.repopulate_eq_some.mp h
  rw [YaProcessData.serialize_fits, queuesBounded_iff, hin, hev, busMetadata_length,
    busMetadata_length]
  constructor
  · rintro ⟨h1, h2, h3, _, h5, _⟩
    exact ⟨h1, h2, h3, h5⟩
  · rintro ⟨h1, h2, h3, h5⟩
    exact ⟨h1, h2, h3, hchanges, h5, hevents⟩

theorem request_eq_some {host : ProcessData} {n w : YaProcessData} {data : ProcessData} :
    request B setup native wine host = some (n, w, data) ↔
      native.repopulate host setup.shared = some n ∧ (YaProcessData.serialize B).fits n ∧
      n.reconstruct setup.input_pointers setup.output_pointers = some (w, data) := by
  unfold request
  simp only [Option.bind_eq_bind, Option.bind_eq_some_iff, Codec.transfer_eq_some,
    Option.pure_def, Prod.exists, Option.some.injEq, Prod.mk.injEq]
  constructor
  · rintro ⟨_, hn, _, ⟨hfits, rfl⟩, _, _, hw, rfl, rfl, rfl⟩
    rw [YaProcessData.reconstruct_put] at hw
    exact ⟨hn, hfits, hw⟩
  · rintro ⟨hn, hfits, hw⟩
    rw [← YaProcessData.reconstruct_put B wine] at hw
    exact ⟨n, hn, _, ⟨hfits, rfl⟩, w, data, hw, rfl, rfl, rfl⟩

/-- A request that gets through was within its bounds, and the plugin is given the data of the
host with empty outputs, whatever the two objects held before. -/
theorem requested_of_request (hs : native.Sendable) {host : ProcessData}
    {n w : YaProcessData} {data : ProcessData}
    (h : request B setup native wine host = some (n, w, data)) :
    host.Bounded setup ∧ Requested host setup n w data := by
  obtain ⟨hn, hfits, hw⟩ := request_eq_some.mp h
  obtain ⟨hin, hout, hqs, hes⟩ := (repopulate_fits hs hn).mp hfits
  obtain ⟨hshared, rfl⟩ := YaProcessData.repopulate_eq_some.mp hn
  obtain ⟨hpointers, heq⟩ := YaProcessData.reconstruct_eq_some.mp hw
  simp only [busMetadata_length] at hpointers
  obtain ⟨rfl, rfl⟩ := Prod.mk.inj heq
  refine ⟨⟨⟨hin, hshared.1, hpointers.1⟩, ⟨hout, hshared.2, hpointers.2⟩, hqs, hes⟩,
    ?_, ?_, ?_, ?_, ?_⟩
  · have hevents : ∀ es : List Event, YaEventList.events ⟨es.map .ofEvent⟩ =
        es.map fun e => (YaEvent.ofEvent e).get := fun _ => List.map_map
    simp only [ProcessData.seen, YaParameterChanges.queues_map_ofQueue, Option.map_map,
      Function.comp_def, hevents, setPointers_busMetadata native.inputs_ [],
      setPointers_busMetadata native.outputs_ []]
  · simp
  · simp
  · exact Option.map_map _ _ _
  · exact Option.map_map _ _ _

theorem request_of_bounded (hs : native.Sendable) {host : ProcessData}
    (hb : host.Bounded setup) :
    ∃ n w data, request B setup native wine host = some (n, w, data) := by
  obtain ⟨n, hn⟩ : ∃ n, native.repopulate host setup.shared = some n :=
    ⟨_, YaProcessData.repopulate_eq_some.mpr ⟨⟨hb.inputs.shared, hb.outputs.shared⟩, rfl⟩⟩
  have hfits := (repopulate_fits (B := B) hs hn).mpr
    ⟨hb.inputs.sent, hb.outputs.sent, hb.parameterChanges, hb.events⟩
  have hpointers : n.inputs_.length ≤ setup.input_pointers.length ∧
      n.outputs_.length ≤ setup.output_pointers.length := by
    obtain ⟨_, rfl⟩ := YaProcessData.repopulate_eq_some.mp hn
    simpa using ⟨hb.inputs.pointers, hb.outputs.pointers⟩
  have hw := YaProcessData.reconstruct_eq_some.mpr ⟨hpointers, rfl⟩
  exact ⟨n, _, _, request_eq_some.mpr ⟨hn, hfits, hw⟩⟩

/-! ## The plugin and the response -/

/-- The outputs of the Wine object after the plugin has added to it. -/
theorem foldl_add (os : List Output) (d : YaProcessData) :
    os.foldl YaProcessData.add d =
      { d with
        output_parameter_changes_ := d.output_parameter_changes_.map fun c =>
          ⟨c.queues_ ++ (os.filterMap Output.queue?).map YaParameterChanges.ofQueue⟩
        output_events_ := d.output_events_.map fun l =>
          ⟨l.events_ ++ (os.filterMap Output.event?).map YaEvent.ofEvent⟩ } := by
  induction os generalizing d with
  | nil => simp
  | cons o os ih =>
    cases o with
    | queue q =>
      simp [ih, YaProcessData.add, List.filterMap_cons, Output.queue?, Output.event?,
        YaParameterChanges.addQueue_eq, Function.comp_def]
    | event e =>
      simp [ih, YaProcessData.add, List.filterMap_cons, Output.queue?, Output.event?,
        YaEventList.addEvent, Function.comp_def]

theorem respond_eq_some {host host' : ProcessData} {n : YaProcessData} :
    respond B native wine host = some (n, host') ↔
      (YaProcessData.Response.serialize B).fits wine ∧
      n = (YaProcessData.Response.serialize B).put native wine ∧
      n.write_back_outputs host = some host' :=
  Codec.transfer_pair_eq_some

theorem process_eq_some {c : Cycle} {r : CycleResult} :
    c.process B setup native wine = some r ↔
      ∃ n w data, request B setup native wine c.host = some (n, w, data) ∧
        r.added = c.plugin data ∧ r.wine = r.added.foldl YaProcessData.add w ∧
        respond B n r.wine c.host = some (r.native, r.host) := by
  obtain ⟨rn, rw', ra, rh⟩ := r
  unfold Cycle.process
  simp only [Option.bind_eq_bind, Option.bind_eq_some_iff, Option.pure_def, Prod.exists,
    Option.some.injEq, CycleResult.mk.injEq]
  constructor
  · rintro ⟨n, w, data, hreq, n', h', hresp, rfl, rfl, rfl, rfl⟩
    exact ⟨n, w, data, hreq, rfl, rfl, hresp⟩
  · rintro ⟨n, w, data, hreq, rfl, rfl, hresp⟩
    exact ⟨n, w, data, hreq, rn, rh, hresp, rfl, rfl, rfl, rfl⟩

variable {host : ProcessData} {data : ProcessData}

/-- After the plugin, the Wine object holds its outputs and nothing else. -/
theorem Requested.outputs_added (h : Requested host setup native wine data) (os : List Output) :
    (os.foldl YaProcessData.add wine).output_parameter_changes_ =
        (host.outputParameterChanges.map fun _ =>
          ⟨(os.filterMap Output.queue?).map YaParameterChanges.ofQueue⟩) ∧
      (os.foldl YaProcessData.add wine).output_events_ =
        host.outputEvents.map fun _ => ⟨(os.filterMap Output.event?).map YaEvent.ofEvent⟩ := by
  rw [foldl_add]
  simp only [h.parameterChanges, h.events, Option.map_map, Function.comp_def, List.nil_append,
    and_self]

theorem Requested.response_fits (h : Requested host setup native wine data) (os : List Output)
    (hbuses : host.outputs.length ≤ max_num_speakers) :
    (YaProcessData.Response.serialize B).fits (os.foldl YaProcessData.add wine) ↔
      (host.outputParameterChanges.isSome → QueuesBounded (os.filterMap Output.queue?)) ∧
        (host.outputEvents.isSome → EventsBounded (os.filterMap Output.event?)) := by
  have houtputs : (os.foldl YaProcessData.add wine).outputs_.length ≤ max_num_speakers := by
    rw [foldl_add]
    exact h.outputs.trans_le hbuses
  obtain ⟨hqueues, hevents⟩ := h.outputs_added os
  rw [YaProcessData.Response.serialize_fits, hqueues, hevents]
  cases host.outputParameterChanges <;> cases host.outputEvents <;>
    simp [houtputs, queuesBounded_iff, eventsBounded_iff]

/-- What is decoded into the native object and written back is what the plugin added. -/
theorem Requested.received (h : Requested host setup native wine data) {os : List Output}
    (hknown : ∀ e ∈ os.filterMap Output.event?, e.Known)
    (hevents : host.outputEvents.isSome → EventsBounded (os.filterMap Output.event?))
    {n : YaProcessData} {host' : ProcessData}
    (hr : respond B native (os.foldl YaProcessData.add wine) host = some (n, host')) :
    host'.outputParameterChanges =
        host.outputParameterChanges.map (· ++ os.filterMap Output.queue?) ∧
      host'.outputEvents = host.outputEvents.map (· ++ os.filterMap Output.event?) := by
  obtain ⟨_, rfl, hw⟩ := respond_eq_some.mp hr
  obtain ⟨_, rfl⟩ := YaProcessData.write_back_outputs_eq_some.mp hw
  obtain ⟨hq, he⟩ := h.outputs_added os
  rw [YaProcessData.Response.serialize_put, hq, he]
  constructor
  · cases host.outputParameterChanges with
    | none => rfl
    | some out => simp
  · cases hout : host.outputEvents with
    | none => rfl
    | some out =>
      have hbounded := (eventsBounded_iff _).mpr (hevents (by simp [hout]))
      simp [YaEventList.events_map_ofEvent hknown hbounded]

/-! ## Whole runs -/

/-- A cycle that is completed was within its bounds, its outputs were received, and what is left
in the native object can be sent with the next request. -/
theorem received_of_process (hs : native.Sendable) {c : Cycle} {r : CycleResult}
    (h : c.process B setup native wine = some r) :
    c.Bounded setup ∧ c.Received r ∧ r.native.Sendable := by
  obtain ⟨n, w, data, hreq, hadded, hwine, hresp⟩ := process_eq_some.mp h
  obtain ⟨hhost, hrequested⟩ := requested_of_request hs hreq
  rw [hwine] at hresp
  obtain ⟨hfits, hn, _⟩ := respond_eq_some.mp hresp
  obtain ⟨hqueues, hevents⟩ := (hrequested.response_fits _ hhost.outputs.sent).mp hfits
  obtain rfl := hrequested.data
  have hknown : ∀ e ∈ r.added.filterMap Output.event?, e.Known := by
    rw [hadded]
    exact c.known _
  refine ⟨⟨hhost, ?_, ?_⟩, hrequested.received hknown hevents hresp, ?_⟩
  · rwa [hadded] at hqueues
  · rwa [hadded] at hevents
  · rw [YaProcessData.Response.serialize_fits] at hfits
    rw [hn, YaProcessData.Response.serialize_put]
    exact ⟨hfits.2.1, hfits.2.2⟩

theorem process_of_bounded (hs : native.Sendable) {c : Cycle} (hb : c.Bounded setup) :
    ∃ r, c.process B setup native wine = some r := by
  obtain ⟨n, w, data, hreq⟩ : ∃ n w data,
      request B setup native wine c.host = some (n, w, data) := request_of_bounded hs hb.host
  obtain ⟨_, hrequested⟩ := requested_of_request hs hreq
  obtain rfl := hrequested.data
  have hfits := (hrequested.response_fits (B := B) (c.plugin (c.host.seen setup))
    hb.host.outputs.sent).mpr ⟨hb.parameterChanges, hb.events⟩
  have hlen : ((YaProcessData.Response.serialize B).put n
      ((c.plugin (c.host.seen setup)).foldl YaProcessData.add w)).outputs_.length =
        c.host.outputs.length := by
    rw [YaProcessData.Response.serialize_put, foldl_add, buses_put_length]
    exact hrequested.outputs
  have hback := YaProcessData.write_back_outputs_eq_some.mpr ⟨hlen, rfl⟩
  have hresp := respond_eq_some.mpr ⟨hfits, rfl, hback⟩
  exact ⟨⟨_, _, _, _⟩, process_eq_some.mpr ⟨n, w, _, hreq, rfl, rfl, hresp⟩⟩

theorem bounded_of_outputsReceived {cs : List Cycle} (hs : native.Sendable)
    (h : OutputsReceived B setup native wine cs) : ∀ c ∈ cs, c.Bounded setup := by
  induction cs generalizing native wine with
  | nil => exact fun _ hc => (List.not_mem_nil hc).elim
  | cons c cs ih =>
    obtain ⟨r, hr, _, hrest⟩ := h
    obtain ⟨hbounded, _, hsendable⟩ := received_of_process hs hr
    rw [List.forall_mem_cons]
    exact ⟨hbounded, ih hsendable hrest⟩

theorem outputsReceived_of_bounded {cs : List Cycle} (hs : native.Sendable)
    (h : ∀ c ∈ cs, c.Bounded setup) : OutputsReceived B setup native wine cs := by
  induction cs generalizing native wine with
  | nil => trivial
  | cons c cs ih =>
    rw [List.forall_mem_cons] at h
    obtain ⟨r, hr⟩ : ∃ r, c.process B setup native wine = some r := process_of_bounded hs h.1
    obtain ⟨_, hreceived, hsendable⟩ := received_of_process hs hr
    exact ⟨r, hr, hreceived, ih hsendable h.2⟩

/-- Every cycle of a run delivers its own outputs and no others, exactly as long as each cycle
keeps to the number of buses that was set up and to the maxima of the serializers. -/
theorem cycles_received_iff (B : Bitsery) (setup : Setup) (cs : List Cycle) :
    OutputsReceived B setup .fresh .fresh cs ↔ ∀ c ∈ cs, c.Bounded setup :=
  ⟨bounded_of_outputsReceived YaProcessData.sendable_fresh,
    outputsReceived_of_bounded YaProcessData.sendable_fresh⟩

/-- A host that takes parameter changes, without buses. -/
def plainHost : ProcessData :=
  ⟨0, 0, 0, [], [], none, some [], none, none, none⟩

def tooManyQueues : Cycle where
  host := plainHost
  plugin _ := List.replicate 65537 (.queue ⟨0, []⟩)
  known := by
    intro _ e he
    obtain ⟨o, ho, heq⟩ := List.mem_filterMap.mp he
    obtain rfl := List.eq_of_mem_replicate ho
    cases heq

/-- One queue more than the maximum, and the response is not decoded. -/
theorem too_many_queues_not_received :
    ¬ ∀ (B : Bitsery) (setup : Setup) (cs : List Cycle),
      OutputsReceived B setup .fresh .fresh cs := by
  intro h
  have hb := bounded_of_outputsReceived YaProcessData.sendable_fresh
    (h .default ⟨⟨[], 0, [], []⟩, [], []⟩ [tooManyQueues]) tooManyQueues List.mem_cons_self
  have hqueues := (hb.parameterChanges rfl).1
  have hadded : ∀ data, (tooManyQueues.plugin data).filterMap Output.queue? =
      List.replicate 65537 ⟨0, []⟩ := fun _ => List.filterMap_replicate_of_some rfl
  rw [hadded, List.length_replicate] at hqueues
  omega

end Vst3
