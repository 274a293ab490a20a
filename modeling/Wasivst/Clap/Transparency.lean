import Wasivst.Clap.AudioCopies
import Wasivst.Lib.Mealy

/-!
# CLAP processing through the bridge

As for VST3, a plugin is a function of what it can read of a call, and a run over the calls of a
host is direct or bridged. Here the host may choose the format of each port in each call, and the
plugin learns it from the pointer that is set.
-/

set_option autoImplicit false

namespace Clap.Transparency
open InPlace Regions ChannelCopies
open Vst3 (Channels ChannelIndex channelAt channelAt_eq_some RegionsFit)

/-- `clap_audio_buffer_t` with something for each channel. -/
structure Port (α : Type) where
  latency : UInt32
  constant_mask : UInt64
  channels : List α

/-- An input channel has a format and samples, an output channel has a format. -/
structure Given where
  steady_time : UInt64
  frames_count : UInt32
  transport : Option EventTransport
  inputs : List (Port (UInt8 × List UInt8))
  outputs : List (Port UInt8)
  in_events : List Clap.Seen

structure Done where
  outputs : List (Port (List UInt8))
  pushed : List GenericEvent

def Done.samples (done : Done) : Channels := done.outputs.map Port.channels

/-- The channels that are given are filled in their formats, and no others. -/
def Done.Fills (done : Done) (x : Given) : Prop :=
  done.samples.map (List.map List.length) =
    x.outputs.map fun p => p.channels.map (channelLength x.frames_count)

structure Plugin (σ : Type) where
  process : σ → Given → σ × Done
  fills : ∀ s x, (process s x).2.Fills x

/-- One call of the host, with the samples that the pointers of the ports lead to. -/
structure Call where
  host : ClapProcess
  inputs : Channels
  outputs : Channels

/-- The two fields that are written back. -/
def withFields (b : AudioBuffer) (fields : UInt64 × UInt32) : AudioBuffer :=
  { b with constant_mask := fields.1, latency := fields.2 }

def setPorts (bs : List AudioBuffer) (outputs : List (Port (List UInt8))) : List AudioBuffer :=
  List.zipWith (fun b o => withFields b (o.constant_mask, o.latency)) bs outputs

/-! ## The direct run -/

/-- A host may have more output channels than the plugin has asked for. Those are ignored. -/
def Call.given (c : Call) (shared : AudioShmBufferConfig) : Given where
  steady_time := c.host.steady_time
  frames_count := c.host.frames_count
  transport := c.host.transport
  inputs := c.host.audio_inputs.mapIdx fun port h =>
    ⟨h.latency, h.constant_mask,
      ((taken c.host c.inputs).getD port []).map fun ch => (h.type, ch)⟩
  outputs := c.host.outputs.mapIdx fun port h =>
    ⟨h.latency, h.constant_mask,
      List.replicate (min (shared.output_offsets.getD port []).length h.channels) h.type⟩
  in_events := c.host.in_events.filterMap GenericEvent.handled

def Call.finished (c : Call) (done : Done) : Call where
  host :=
    { c.host with
      audio_outputs := c.host.audio_outputs.map fun bs => setPorts bs done.outputs
      out_events := c.host.out_events ++ done.pushed.filterMap GenericEvent.handled }
  inputs := c.inputs
  outputs := overwriteAll done.samples c.outputs

section Runs
variable {σ : Type}

/-- The plugin afterwards, and the call as the host finds it. -/
def Call.direct (plugin : Plugin σ) (shared : AudioShmBufferConfig) (s : σ) (c : Call) :
    σ × Call :=
  let (s, done) := plugin.process s (c.given shared)
  (s, c.finished done)

/-! ## The bridged run -/

/-- `offset` is where a channel pointer leads in the shared memory. -/
structure Wine where
  setup : Setup
  offset : UInt64 → Nat

def Wine.readPort (w : Wine) (mem : List UInt8) (frames : UInt32) (b : AudioBuffer) :
    Option (Port (UInt8 × List UInt8)) := do
  let (type, pointers) := b.pointers
  let chs ← readChannels mem (channelLength frames type) b.channels (pointers.map w.offset)
  return ⟨b.latency, b.constant_mask, chs.map fun ch => (type, ch)⟩

def Wine.read (w : Wine) (mem : List UInt8) (data : Reconstructed) : Option Given := do
  let inputs ← data.audio_inputs.mapM (w.readPort mem data.frames_count)
  return {
    steady_time := data.steady_time
    frames_count := data.frames_count
    transport := data.transport
    inputs
    outputs := data.audio_outputs.map fun b =>
      ⟨b.latency, b.constant_mask, List.replicate b.channels b.pointers.1⟩
    in_events := data.in_events }

/-- Where the pointers of the ports lead. -/
def Wine.place (w : Wine) (bs : List AudioBuffer) (k : ChannelIndex) : Option Nat := do
  let b ← bs[k.1]?
  let pointer ← b.pointers.2[k.2]?
  return w.offset pointer

def Wine.write (w : Wine) (data : Reconstructed) (samples : Channels) (mem : List UInt8) :
    Option (List UInt8) :=
  placeAll (w.place data.audio_outputs) (channelAt samples) mem
    (indices (data.audio_outputs.map AudioBuffer.channels))

/-- The output ports and the list of the events are those of the object. -/
def leave (wine : Process) (done : Done) : Process :=
  { wine with audio_outputs_ := setPorts wine.audio_outputs_ done.outputs }.push done.pushed

structure Bridge (σ : Type) where
  native : Process
  wine : Process
  mem : List UInt8
  plugin : σ

def Bridge.call (B : Bitsery) (w : Wine) (plugin : Plugin σ) (b : Bridge σ) (c : Call) :
    Option (Bridge σ × Call) := do
  let (native, wine, data) ← request B w.setup b.native b.wine c.host
  let mem ← copyInputs c.host w.setup.shared c.inputs b.mem
  let given ← w.read mem data
  let (state, done) := plugin.process b.plugin given
  let mem ← w.write data done.samples mem
  let wine := leave wine done
  let (native, host) ← respond B native wine c.host
  let outputs ← copyOutputs native c.host w.setup.shared mem c.outputs
  return (⟨native, Process.Response.written wine, mem, state⟩, ⟨host, c.inputs, outputs⟩)

/-! ## What is expected -/

/-- The pointers lead to the channels of the shared memory, which have room for `n` bytes each. -/
structure Wine.Mapped (w : Wine) (n : Nat) : Prop where
  inputs : w.setup.input_pointers.map (List.map w.offset) =
    w.setup.shared.input_offsets.map (List.map UInt32.toNat)
  outputs : w.setup.output_pointers.map (List.map w.offset) =
    w.setup.shared.output_offsets.map (List.map UInt32.toNat)
  regions : RegionsFit w.setup.shared n

/-- Events that are bridged. -/
structure EventsFit (es : List GenericEvent) : Prop where
  no_sysex : ∀ e ∈ es, ¬ e.IsSysex
  count : (es.filterMap GenericEvent.handled).length ≤ 2 ^ 16

structure Call.Fits (c : Call) (shared : AudioShmBufferConfig) (n : Nat) (done : Done) : Prop where
  input_ports : c.host.audio_inputs.length ≤ shared.input_offsets.length
  output_ports : c.host.outputs.length ≤ shared.output_offsets.length
  some_outputs : c.host.audio_outputs.isSome
  inputs : PortsValid c.host.audio_inputs c.host.frames_count c.inputs
  outputs : PortsValid c.host.outputs c.host.frames_count c.outputs
  input_channels : ∀ p ∈ c.host.audio_inputs.zip shared.input_offsets,
    p.1.channels ≤ p.2.length
  lengths : ∀ h ∈ c.host.audio_inputs ++ c.host.outputs,
    channelLength c.host.frames_count h.type ≤ n
  in_events : EventsFit c.host.in_events
  pushed : EventsFit done.pushed

/-- The calls and what the plugin does in the direct run are within the limits. -/
def AllFit (plugin : Plugin σ) (shared : AudioShmBufferConfig) (n : Nat) :
    σ → List Call → Prop :=
  Mealy.Along (Call.direct plugin shared) fun s c =>
    c.Fits shared n (plugin.process s (c.given shared)).2

/-! ## The request -/

theorem EventsFit.parsed {es : List GenericEvent} (h : EventsFit es) :
    (EventList.write_back_outputs ⟨es.filterMap Event.parse⟩ =
      es.filterMap GenericEvent.handled) ∧ (es.filterMap Event.parse).length ≤ 2 ^ 16 := by
  have hsame := (EventList.parsed_eq_handled_iff es).mpr h.no_sysex
  have hcount := h.count
  rw [← hsame, EventList.write_back_outputs, List.length_map] at hcount
  exact ⟨hsame, hcount⟩

/-- The ports of the host with the pointers of the Wine side. -/
def bridgedPorts (offsets : List (List UInt32)) (pointers : List (List UInt64))
    (olds : List AudioBuffer) (ts : List UInt8) (host : List AudioBuffer) : List AudioBuffer :=
  setPointers ((portMetadata olds offsets host).map AudioBuffer.cleared) (portTypes ts host)
    pointers

/-- The data for the plugin. -/
def Call.data (c : Call) (setup : Setup) (native : Process) : Reconstructed where
  steady_time := c.host.steady_time
  frames_count := c.host.frames_count
  transport := c.host.transport
  audio_inputs := bridgedPorts setup.shared.input_offsets setup.input_pointers native.audio_inputs_
    native.audio_inputs_type_ c.host.audio_inputs
  audio_outputs := bridgedPorts setup.shared.output_offsets setup.output_pointers
    native.audio_outputs_ native.audio_outputs_type_ c.host.outputs
  in_events := c.host.in_events.filterMap GenericEvent.handled
  out_events := []

section Port
variable {offsets : List (List UInt32)} {pointers : List (List UInt64)} {offset : UInt64 → Nat}

theorem getD_offsets (h : pointers.map (List.map offset) = offsets.map (List.map UInt32.toNat))
    (port : Nat) :
    (pointers.getD port []).map offset = (offsets.getD port []).map UInt32.toNat := by
  have hport := congrArg (fun l => (l[port]?).getD []) h
  have hmap : ∀ {α : Type} (f : α → Nat) (xs : Option (List α)),
      (xs.map (List.map f)).getD [] = (xs.getD []).map f := by
    intro α f xs
    cases xs <;> rfl
  simp only [List.getElem?_map, hmap] at hport
  rwa [List.getD_eq_getElem?_getD, List.getD_eq_getElem?_getD]

/-- A port of the data, with what the pointers of its channels lead to. -/
theorem bridgedPorts_getElem? (hint : ∀ os ∈ offsets, os.length ≤ 8192)
    (hplace : pointers.map (List.map offset) = offsets.map (List.map UInt32.toNat))
    (olds : List AudioBuffer) (ts : List UInt8) {host : List AudioBuffer} {frames : UInt32}
    {chs : Channels} (hv : PortsValid host frames chs) {port : Nat} {h : AudioBuffer}
    (hh : host[port]? = some h) :
    ∃ b, (bridgedPorts offsets pointers olds ts host)[port]? = some b ∧
      b.latency = h.latency ∧ b.constant_mask = h.constant_mask ∧
      b.channels = min (offsets.getD port []).length h.channels ∧
      (0 < b.channels → b.pointers.1 = h.type ∧
        b.pointers.2.map offset = (offsets.getD port []).map UInt32.toNat) := by
  obtain ⟨b, hb, hlatency, hmask, hcount, hpointers⟩ :=
    setPointers_getElem? hint olds ts pointers hh
  refine ⟨b, hb, hlatency, hmask, hcount, ?_⟩
  intro hpos
  rw [hcount, Nat.lt_min] at hpos
  have hsame := getD_offsets hplace port
  have hne : pointers.getD port [] ≠ [] := by
    intro hnil
    rw [hnil, List.map_nil, eq_comm, List.map_eq_nil_iff] at hsame
    rw [hsame] at hpos
    exact Nat.lt_irrefl 0 hpos.1
  have hat := hpointers (hv.hasData (List.mem_of_getElem? hh) hpos.2) hne
  rw [hat]
  exact ⟨rfl, hsame⟩

end Port

section Call
variable {c : Call} {w : Wine} {n : Nat} {done : Done}
variable (hfits : c.Fits w.setup.shared n done)
include hfits

theorem accepts : Process.Accepts c.host w.setup.shared := by
  refine ⟨hfits.input_ports, hfits.output_ports, ?_, ?_⟩
  · intro h hh
    rcases List.mem_append.mp hh with hin | hout
    · exact hasData_of_format (hfits.inputs.format h hin)
    · exact hasData_of_format (hfits.outputs.format h hout)
  · exact fun p hp _ => hfits.input_channels p hp

/-- Whatever the two objects held before. -/
theorem request_data (B : Bitsery) (native wine : Process) :
    ∃ native' wine', request B w.setup native wine c.host =
        some (native', wine', c.data w.setup native) ∧
      wine'.audio_outputs_ = (c.data w.setup native).audio_outputs ∧
      wine'.out_events_ = ⟨[]⟩ ∧
      native'.audio_outputs_type_ = portTypes native.audio_outputs_type_ c.host.outputs := by
  obtain ⟨hevents, hcount⟩ := hfits.in_events.parsed
  obtain ⟨n', hn⟩ : ∃ n', native.repopulate c.host w.setup.shared = some n' :=
    ⟨_, Process.repopulate_eq_some.mpr ⟨accepts hfits, rfl⟩⟩
  obtain ⟨_, heq⟩ := Process.repopulate_eq_some.mp hn
  have hinputs := Nat.le_trans hfits.input_ports w.setup.bounded.inputs
  have houtputs := Nat.le_trans hfits.output_ports w.setup.bounded.outputs
  have hfit : (Process.serialize B).fits n' := by
    rw [Process.serialize_fits, heq]
    refine ⟨?_, ?_, ?_, ?_, (EventList.serialize_fits_parsed B c.host.in_events).mpr hcount⟩
    all_goals
      simp only [portMetadata_length, portTypes_length]
      omega
  have hlengths : c.host.audio_inputs.length ≤ w.setup.input_pointers.length ∧
      c.host.outputs.length ≤ w.setup.output_pointers.length :=
    ⟨hfits.input_ports.trans_eq (pointers_length w.setup.inputs).symm,
      hfits.output_ports.trans_eq (pointers_length w.setup.outputs).symm⟩
  obtain ⟨⟨wine', data⟩, hw⟩ : ∃ r, ((Process.serialize B).put wine n').reconstruct
      w.setup.input_pointers w.setup.output_pointers = some r := by
    refine ⟨_, Process.reconstruct_eq_some.mpr ⟨?_, rfl⟩⟩
    simpa [Process.serialize_put, Process.written, heq] using hlengths
  have hdata : data = c.data w.setup native ∧ wine'.audio_outputs_ = data.audio_outputs ∧
      wine'.out_events_ = ⟨[]⟩ := by
    obtain ⟨_, hrec⟩ := Process.reconstruct_eq_some.mp hw
    rw [Process.serialize_put, heq, EventList.serialize_put_parsed] at hrec
    obtain ⟨rfl, rfl⟩ := Prod.mk.inj hrec
    refine ⟨?_, rfl, rfl⟩
    unfold Call.data
    rw [← hevents]
    rfl
  obtain ⟨rfl, houts, hout⟩ := hdata
  refine ⟨n'.written, wine', request_eq_some.mpr ⟨n', hn, hfit, hw, rfl⟩, houts, hout, ?_⟩
  rw [heq]
  rfl

/-! ## What the plugin reads -/

theorem input_channels_le {port : Nat} {h : AudioBuffer}
    (hh : c.host.audio_inputs[port]? = some h) :
    h.channels ≤ (w.setup.shared.input_offsets.getD port []).length := by
  have hport := Nat.lt_of_lt_of_le (List.getElem?_eq_some_iff.mp hh).1 hfits.input_ports
  obtain ⟨os, hos⟩ : ∃ os, w.setup.shared.input_offsets[port]? = some os :=
    ⟨_, List.getElem?_eq_getElem hport⟩
  have hzip : (h, os) ∈ c.host.audio_inputs.zip w.setup.shared.input_offsets := by
    apply List.mem_of_getElem? (i := port)
    rw [List.getElem?_zip_eq_some]
    exact ⟨hh, hos⟩
  rw [List.getD_eq_getElem?_getD, hos]
  exact hfits.input_channels _ hzip

variable (hm : w.Mapped n)
include hm

theorem readPort_given {mem : List UInt8} {native : Process}
    (hcopied : ∀ k ch o, channelAt (taken c.host c.inputs) k = some ch →
      channelAt w.setup.shared.input_offsets k = some o → load mem o.toNat ch.length = some ch)
    {port : Nat} {h : AudioBuffer} (hh : c.host.audio_inputs[port]? = some h) {b : AudioBuffer}
    (hb : (c.data w.setup native).audio_inputs[port]? = some b) :
    w.readPort mem c.host.frames_count b =
      some ⟨h.latency, h.constant_mask,
        ((taken c.host c.inputs).getD port []).map fun ch => (h.type, ch)⟩ := by
  obtain ⟨b', hb', hlatency, hmask, hcount, hpointers⟩ := bridgedPorts_getElem?
    w.setup.bounded.input hm.inputs native.audio_inputs_ native.audio_inputs_type_ hfits.inputs hh
  obtain rfl := Option.some.inj (hb'.symm.trans hb)
  set chs := (taken c.host c.inputs).getD port [] with hchs
  have hlen : chs.length = h.channels := by
    rw [hchs, getD_length, taken_counts, ← getD_length]
    exact hfits.inputs.count hh
  have hle := input_channels_le hfits hh
  rw [Nat.min_eq_right hle, ← hlen] at hcount
  rw [hcount] at hpointers
  have hread : readChannels mem (channelLength c.host.frames_count b'.pointers.1) chs.length
      (b'.pointers.2.map w.offset) = some chs := by
    apply readChannels_eq
    intro i ch hch
    have hin := (List.getElem?_eq_some_iff.mp hch).1
    obtain ⟨htype, hplaces⟩ := hpointers (Nat.zero_lt_of_lt hin)
    have hoffset := List.getElem?_eq_getElem (Nat.lt_of_lt_of_le hin (hlen.trans_le hle))
    have hat : channelAt (taken c.host c.inputs) (port, i) = some ch :=
      (channelAt_eq _ _).trans hch
    obtain ⟨h', hh', heq⟩ := taken_length hfits.inputs hat
    obtain rfl := Option.some.inj (hh.symm.trans hh')
    have hload := hcopied (port, i) ch _ hat ((channelAt_eq _ _).trans hoffset)
    rw [heq] at hload
    refine ⟨_, ?_, htype ▸ hload⟩
    rw [hplaces, List.getElem?_map, hoffset]
    rfl
  have hformat : chs.map (fun ch => (b'.pointers.1, ch)) = chs.map fun ch => (h.type, ch) := by
    apply List.map_congr_left
    intro ch hch
    rw [(hpointers (List.length_pos_of_mem hch)).1]
  unfold Wine.readPort
  rw [hlatency, hmask, hcount]
  simp only [hread, hformat, Option.bind_eq_bind, Option.bind_some, Option.pure_def]

theorem outputs_given (native : Process) :
    ((c.data w.setup native).audio_outputs.map fun b =>
      (⟨b.latency, b.constant_mask, List.replicate b.channels b.pointers.1⟩ : Port UInt8)) =
        (c.given w.setup.shared).outputs := by
  apply List.ext_getElem?
  intro port
  simp only [Call.given, List.getElem?_map, List.getElem?_mapIdx]
  cases hh : c.host.outputs[port]? with
  | none =>
    have hle : (c.data w.setup native).audio_outputs.length ≤ port := by
      simp only [Call.data, bridgedPorts, setPointers_length, List.length_map,
        portMetadata_length]
      exact List.getElem?_eq_none_iff.mp hh
    rw [List.getElem?_eq_none hle]
    rfl
  | some h =>
    obtain ⟨b, hb, hlatency, hmask, hcount, hpointers⟩ := bridgedPorts_getElem?
      w.setup.bounded.output hm.outputs native.audio_outputs_ native.audio_outputs_type_
      hfits.outputs hh
    have hformat : List.replicate b.channels b.pointers.1 = List.replicate b.channels h.type := by
      rcases Nat.eq_zero_or_pos b.channels with hzero | hpos
      · rw [hzero]
        rfl
      · rw [(hpointers hpos).1]
    rw [hcount] at hformat
    simp only [Call.data, hb, Option.map_some, hlatency, hmask, hcount, hformat]

/-- The plugin reads on the Wine side what it would read of the host's own data. -/
theorem read_given {mem : List UInt8} (native : Process)
    (hcopied : ∀ k ch o, channelAt (taken c.host c.inputs) k = some ch →
      channelAt w.setup.shared.input_offsets k = some o →
      load mem o.toNat ch.length = some ch) :
    w.read mem (c.data w.setup native) = some (c.given w.setup.shared) := by
  have hinputs : (c.data w.setup native).audio_inputs.mapM (w.readPort mem c.host.frames_count) =
      some (c.given w.setup.shared).inputs := by
    apply mapM_eq_some
    · simp only [Call.data, Call.given, bridgedPorts, setPointers_length, List.length_map,
        portMetadata_length, List.length_mapIdx]
    · intro port b y hb hy
      simp only [Call.given, List.getElem?_mapIdx, Option.map_eq_some_iff] at hy
      obtain ⟨h, hh, rfl⟩ := hy
      exact readPort_given hfits hm hcopied hh hb
  have houtputs := outputs_given hfits hm native
  have hframes : (c.data w.setup native).frames_count = c.host.frames_count := rfl
  unfold Wine.read
  rw [hframes, hinputs, houtputs]
  rfl

/-! ## What the plugin writes -/

/-- As many channels as both sides have. -/
theorem filled_iff (native : Process) (k : ChannelIndex) :
    k ∈ indices ((c.data w.setup native).audio_outputs.map AudioBuffer.channels) ↔
      (channelAt c.outputs k).isSome ∧ (channelAt w.setup.shared.output_offsets k).isSome := by
  have hcount : ((c.data w.setup native).audio_outputs.map AudioBuffer.channels).getD k.1 0 =
      min (w.setup.shared.output_offsets.getD k.1 []).length (c.outputs.getD k.1 []).length := by
    have hget : ∀ counts : List Nat, counts.getD k.1 0 = counts[k.1]?.getD 0 :=
      fun _ => List.getD_eq_getElem?_getD
    rw [getD_length c.outputs, hfits.outputs.channels, hget, hget, List.getElem?_map,
      List.getElem?_map]
    cases hh : c.host.outputs[k.1]? with
    | none =>
      have hle : (c.data w.setup native).audio_outputs.length ≤ k.1 := by
        simp only [Call.data, bridgedPorts, setPointers_length, List.length_map,
          portMetadata_length]
        exact List.getElem?_eq_none_iff.mp hh
      rw [List.getElem?_eq_none hle]
      exact (Nat.min_zero _).symm
    | some h =>
      obtain ⟨b, hb, _, _, hcount, _⟩ := bridgedPorts_getElem?
        w.setup.bounded.output hm.outputs native.audio_outputs_ native.audio_outputs_type_
        hfits.outputs hh
      simp only [Call.data, hb, Option.map_some, Option.getD_some, hcount]
  rw [mem_indices, hcount, Nat.lt_min, channelAt_isSome, channelAt_isSome, and_comm]

theorem place_data {native : Process} {k : ChannelIndex}
    (hk : k ∈ indices ((c.data w.setup native).audio_outputs.map AudioBuffer.channels)) :
    ∃ o, channelAt w.setup.shared.output_offsets k = some o ∧
      w.place (c.data w.setup native).audio_outputs k = some o.toNat := by
  obtain ⟨hch, hoffset⟩ := (filled_iff hfits hm native k).mp hk
  obtain ⟨o, ho⟩ := Option.isSome_iff_exists.mp hoffset
  obtain ⟨ch, hch⟩ := Option.isSome_iff_exists.mp hch
  obtain ⟨h, _, hh, _, _, hlt⟩ := hfits.outputs.port hch
  obtain ⟨b, hb, _, _, hcount, hpointers⟩ := bridgedPorts_getElem?
    w.setup.bounded.output hm.outputs native.audio_outputs_ native.audio_outputs_type_
    hfits.outputs hh
  have hat := (channelAt_eq _ k).symm.trans ho
  have hpos : 0 < b.channels := by
    have hin := (List.getElem?_eq_some_iff.mp hat).1
    rw [hcount, Nat.lt_min]
    exact ⟨Nat.zero_lt_of_lt hin, Nat.zero_lt_of_lt hlt⟩
  have hpointer : ((b.pointers.2).map w.offset)[k.2]? = some o.toNat := by
    rw [(hpointers hpos).2, List.getElem?_map, hat]
    rfl
  rw [List.getElem?_map, Option.map_eq_some_iff] at hpointer
  obtain ⟨pointer, hpointer, hplace⟩ := hpointer
  refine ⟨o, ho, ?_⟩
  simp only [Wine.place, Call.data, hb, hpointer, hplace, Option.bind_eq_bind, Option.bind_some,
    Option.pure_def]

section Filled
variable (hfills : done.Fills (c.given w.setup.shared))
include hfills

theorem samples_counts (native : Process) :
    done.samples.map List.length =
      (c.data w.setup native).audio_outputs.map AudioBuffer.channels := by
  have hcounts := congrArg (List.map List.length) hfills
  rw [← outputs_given hfits hm native] at hcounts
  simpa only [List.map_map, Function.comp_def, List.length_map, List.length_replicate]
    using hcounts

omit hfits hm in
theorem samples_length {k : ChannelIndex} {ch : List UInt8}
    (hch : channelAt done.samples k = some ch) :
    ∃ h, c.host.outputs[k.1]? = some h ∧
      ch.length = channelLength c.host.frames_count h.type := by
  obtain ⟨chs, hchs, hat⟩ := channelAt_eq_some.mp hch
  have hport := congrArg (fun l => l[k.1]?) hfills
  simp only [Call.given, List.getElem?_map, List.getElem?_mapIdx, hchs, Option.map_some,
    Option.map_map] at hport
  obtain ⟨h, hh, hlengths⟩ := Option.map_eq_some_iff.mp hport.symm
  refine ⟨h, hh, ?_⟩
  have hlength := congrArg (fun l => l[k.2]?) hlengths
  simp only [Function.comp_apply, List.map_replicate, List.getElem?_map, hat,
    Option.map_some] at hlength
  exact (List.eq_of_mem_replicate (List.mem_of_getElem? hlength))

/-- The region of each channel that the plugin fills holds its samples. -/
theorem write_stored (native : Process) {mem : List UInt8}
    (hmem : mem.length = w.setup.shared.size.toNat) :
    ∃ mem', w.write (c.data w.setup native) done.samples mem = some mem' ∧
      mem'.length = mem.length ∧
      ∀ k ch o, channelAt done.samples k = some ch →
        channelAt w.setup.shared.output_offsets k = some o →
        load mem' o.toNat ch.length = some ch := by
  have hapart := hm.regions.apart
  rw [List.map_append] at hapart
  have hroom : ∀ k o, channelAt w.setup.shared.output_offsets k = some o →
      o.toNat + n ≤ mem.length := by
    intro k o ho
    rw [hmem]
    exact hm.regions.output_room ho
  have hlen : ∀ k ch, channelAt done.samples k = some ch → ch.length ≤ n := by
    intro k ch hch
    obtain ⟨h, hh, heq⟩ := samples_length hfills hch
    rw [heq]
    exact hfits.lengths h (List.mem_append_right _ (List.mem_of_getElem? hh))
  exact placeAll_channels (List.pairwise_append.mp hapart).2.1 hroom
    (samples_counts hfits hm hfills native) hlen fun _ hk => place_data hfits hm hk

/-! ## What the host finds -/

/-- The samples that come back are those of the plugin, in the channels that it was given. -/
theorem copyOutputs_finished {native native' : Process} {mem : List UInt8}
    (hcounts : native'.audio_outputs_.map AudioBuffer.channels =
      (c.data w.setup native).audio_outputs.map AudioBuffer.channels)
    (htypes : native'.audio_outputs_type_ = portTypes native.audio_outputs_type_ c.host.outputs)
    (hstored : ∀ k ch o, channelAt done.samples k = some ch →
      channelAt w.setup.shared.output_offsets k = some o →
      load mem o.toNat ch.length = some ch) :
    copyOutputs native' c.host w.setup.shared mem c.outputs = some (c.finished done).outputs := by
  have hsamples := samples_counts hfits hm hfills native
  unfold copyOutputs
  rw [hcounts]
  apply fetchAll_eq hsamples
  intro k s hs
  have hk : k ∈ indices ((c.data w.setup native).audio_outputs.map AudioBuffer.channels) := by
    rw [← channelAt_isSome_iff hsamples, hs]
    rfl
  obtain ⟨hch, hoffset⟩ := (filled_iff hfits hm native k).mp hk
  obtain ⟨o, ho⟩ := Option.isSome_iff_exists.mp hoffset
  obtain ⟨ch, hch⟩ := Option.isSome_iff_exists.mp hch
  obtain ⟨h, _, hh, _, _, hlt⟩ := hfits.outputs.port hch
  obtain ⟨h', hh', heq⟩ := samples_length hfills hs
  obtain rfl := Option.some.inj (hh.symm.trans hh')
  have hdata := hfits.outputs.hasData (List.mem_of_getElem? hh) (Nat.zero_lt_of_lt hlt)
  have htype : native'.audio_outputs_type_.getD k.1 AudioBufferType.Float32 = h.type := by
    rw [htypes, List.getD_eq_getElem?_getD, portTypes, List.getElem?_mapIdx, hh]
    exact portType_eq hdata _
  refine ⟨o.toNat, ch, ?_, ?_, hch⟩
  · rw [shmPlace, ho, Option.map_some]
  · rw [htype, ← heq]
    exact hstored k s o hs ho

end Filled

omit hm in
theorem respond_finished (B : Bitsery) (native' : Process) {native wine' : Process}
    (hwine : wine'.audio_outputs_ = (c.data w.setup native).audio_outputs)
    (hevents : wine'.out_events_ = ⟨[]⟩)
    (hbuses : done.outputs.length = (c.data w.setup native).audio_outputs.length) :
    ∃ native'', respond B native' (leave wine' done) c.host =
        some (native'', (c.finished done).host) ∧
      native''.audio_outputs_type_ = native'.audio_outputs_type_ ∧
      native''.audio_outputs_.map AudioBuffer.channels =
        (c.data w.setup native).audio_outputs.map AudioBuffer.channels := by
  set wine'' := leave wine' done with hleave
  have houts : wine''.audio_outputs_ =
      setPorts (c.data w.setup native).audio_outputs done.outputs := by
    rw [← hwine]
    rfl
  have hpushed : wine''.out_events_ = ⟨done.pushed.filterMap Event.parse⟩ := by
    rw [hleave, leave, Process.push, EventList.foldl_out_try_push, hevents]
    rfl
  have hlen : wine''.audio_outputs_.length = c.host.outputs.length := by
    rw [houts, setPorts, List.length_zipWith, hbuses, Nat.min_self]
    simp only [Call.data, bridgedPorts, setPointers_length, List.length_map, portMetadata_length]
  obtain ⟨hwritten, hcount⟩ := hfits.pushed.parsed
  have hfit : (Process.Response.serialize B).fits wine'' := by
    have hports := Nat.le_trans hfits.output_ports w.setup.bounded.outputs
    rw [Process.Response.serialize_fits, hpushed, EventList.serialize_fits_parsed]
    exact ⟨by omega, hcount⟩
  set native'' := (Process.Response.serialize B).put native' wine'' with hnative''
  have hput : native''.audio_outputs_ = wine''.audio_outputs_.map AudioBuffer.cleared ∧
      native''.audio_outputs_type_ = native'.audio_outputs_type_ ∧
      native''.out_events_ = ⟨done.pushed.filterMap Event.parse⟩ := by
    rw [hnative'', Process.Response.serialize_put, hpushed, EventList.serialize_put_parsed]
    exact ⟨rfl, rfl, rfl⟩
  have hlen'' : native''.audio_outputs_.length = c.host.outputs.length := by
    rw [hput.1, List.length_map, hlen]
  have hfields : native''.audio_outputs_.map (fun b => (b.constant_mask, b.latency)) =
      done.outputs.map fun o => (o.constant_mask, o.latency) := by
    rw [hput.1, List.map_map, houts]
    exact map_update_set withFields (fun _ _ => rfl) hbuses
  obtain ⟨host', hback⟩ : ∃ host', native''.write_back_outputs c.host = some host' :=
    ⟨_, Process.write_back_outputs_eq_some.mpr ⟨hfits.some_outputs, hlen'', rfl⟩⟩
  have hresp : respond B native' wine'' c.host = some (native'', host') :=
    respond_eq_some.mpr ⟨hfit, hnative'', hback⟩
  obtain ⟨bs, hbs⟩ := Option.isSome_iff_exists.mp hfits.some_outputs
  have hfinished : host' = (c.finished done).host := by
    obtain ⟨_, _, rfl⟩ := Process.write_back_outputs_eq_some.mp hback
    have hports : List.zipWith
        (fun h b => { h with constant_mask := b.constant_mask, latency := b.latency })
        c.host.outputs native''.audio_outputs_ = setPorts bs done.outputs := by
      rw [ClapProcess.outputs, hbs]
      exact update_congr withFields hfields
    rw [hports, hput.2.2, hwritten]
    simp only [Call.finished, hbs, Option.map_some]
  rw [hfinished] at hresp
  refine ⟨native'', hresp, hput.2.1, ?_⟩
  rw [hput.1, List.map_map, houts]
  exact map_update_kept withFields (fun _ _ => rfl) hbuses

end Call

/-! ## Whole runs -/

/-- A bridge between two calls. -/
def Bridge.Ready (w : Wine) (b : Bridge σ) : Prop := b.mem.length = w.setup.shared.size.toNat

variable {w : Wine} {n : Nat} (hm : w.Mapped n) {plugin : Plugin σ}
include hm

theorem call_implements (B : Bitsery) :
    Mealy.Implements (Call.direct plugin w.setup.shared) (Bridge.call B w plugin) Bridge.plugin
      (Bridge.Ready w)
      fun s c => c.Fits w.setup.shared n (plugin.process s (c.given w.setup.shared)).2 := by
  intro b c hb hfits
  obtain ⟨native', wine', hreq, hwine, hevents, htypes⟩ := request_data hfits B b.native b.wine
  have hshared : ∀ k, (channelAt c.inputs k).isSome →
      (channelAt w.setup.shared.input_offsets k).isSome := by
    intro k hk
    obtain ⟨ch, hch⟩ := Option.isSome_iff_exists.mp hk
    obtain ⟨h, _, hh, _, _, hlt⟩ := hfits.inputs.port hch
    rw [channelAt_isSome]
    exact Nat.lt_of_lt_of_le hlt (input_channels_le hfits hh)
  obtain ⟨mem₁, hmem₁, hlength₁, hcopied⟩ := copyInputs_copied hm.regions hb hfits.inputs
    (fun h hh => hfits.lengths h (List.mem_append_left _ hh)) hshared
  have hread := read_given hfits hm b.native hcopied
  have hfills := plugin.fills b.plugin (c.given w.setup.shared)
  cases hdone : plugin.process b.plugin (c.given w.setup.shared) with
  | mk s done =>
    rw [hdone] at hfits hfills
    obtain ⟨mem₂, hmem₂, hlength₂, hstored⟩ :=
      write_stored hfits hm hfills b.native (hlength₁.trans hb)
    have hbuses : done.outputs.length = (c.data w.setup b.native).audio_outputs.length := by
      have hcount := congrArg List.length (samples_counts hfits hm hfills b.native)
      simpa only [Done.samples, List.length_map] using hcount
    obtain ⟨native'', hresp, hsame, hcounts⟩ :=
      respond_finished hfits B native' hwine hevents hbuses
    have houtputs := copyOutputs_finished hfits hm hfills hcounts (hsame.trans htypes) hstored
    have hdirect : Call.direct plugin w.setup.shared b.plugin c = (s, c.finished done) := by
      unfold Call.direct
      rw [hdone]
    rw [hdirect]
    refine ⟨⟨native'', Process.Response.written (leave wine' done), mem₂, s⟩, ?_, rfl, ?_⟩
    · unfold Bridge.call
      simp only [hreq, hmem₁, hread, hdone, hmem₂, hresp, houtputs, Option.bind_eq_bind,
        Option.bind_some, Option.pure_def]
      rfl
    · exact hlength₂.trans (hlength₁.trans hb)

end Runs

/-- It fills its channels with the number of the call, and pushes a note each time. -/
def counter : Plugin Nat where
  process s x :=
    (s + 1,
      { outputs := x.outputs.map fun p => ⟨p.latency, p.constant_mask, p.channels.map fun type =>
          List.replicate (channelLength x.frames_count type) (UInt8.ofNat s)⟩
        pushed := [noteEvent] })
  fills s x := by
    simp [Done.Fills, Done.samples, Function.comp_def]

/-- Regions for one double each. -/
def wine : Wine where
  setup :=
    { shared := ⟨[], 16, [[0]], [[8]]⟩
      input_pointers := [[64]]
      output_pointers := [[72]]
      bounded := ⟨by decide, by decide, by decide, by decide, by decide⟩
      inputs := rfl
      outputs := rfl }
  offset pointer := pointer.toNat - 64

end Clap.Transparency
