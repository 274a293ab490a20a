import Wasivst.ChannelCopies
import Wasivst.Lib.Mealy
import Wasivst.Vst3.ProcessCycles

/-!
# VST3 processing through the bridge

A plugin is a function of what it can read of a call. A run over the calls of a host is direct, on
the host's own data, or bridged: then the data goes through the two `YaProcessData` objects and the
audio through the shared memory, and the plugin follows the pointers on the Wine side. Both runs
give the host the same.
-/

set_option autoImplicit false

namespace Vst3.Transparency
open InPlace Regions ChannelCopies

/-- The flags and the samples of a bus. -/
structure BusAudio where
  silenceFlags : UInt64
  channels : List (List UInt8)

/-- Of an output bus, a plugin reads the flags and the number of channels. -/
structure Seen where
  processMode : UInt32
  symbolicSampleSize : UInt32
  numSamples : UInt32
  inputs : List BusAudio
  outputs : List (UInt64 × Nat)
  parameterChanges : List ParamValueQueue
  takesParameterChanges : Bool
  events : Option (List Event)
  takesEvents : Bool
  processContext : Option ProcessContext

/-- The bytes of a channel. -/
def Seen.channelLength (x : Seen) : Nat :=
  x.numSamples.toInt32.toNatClampNeg * if x.symbolicSampleSize = kSample64 then 8 else 4

structure Done where
  outputs : List BusAudio
  added : List Output

def Done.samples (done : Done) : Channels := done.outputs.map BusAudio.channels

/-- A plugin fills the channels that it is given, and no others. -/
structure Plugin (σ : Type) where
  process : σ → Seen → σ × Done
  channels : ∀ s x, (process s x).2.samples.map List.length = x.outputs.map Prod.snd
  samples : ∀ s x, ∀ ch ∈ (process s x).2.samples.flatten, ch.length = x.channelLength

/-- One call of the host, with the samples that the pointers of the buses lead to. -/
structure Call where
  data : ProcessData
  inputs : Channels
  outputs : Channels

def withFlags (b : AudioBusBuffers) (flags : UInt64) : AudioBusBuffers :=
  { b with silenceFlags := flags }

def setFlags (bs : List AudioBusBuffers) (outputs : List BusAudio) : List AudioBusBuffers :=
  List.zipWith (fun b o => withFlags b o.silenceFlags) bs outputs

/-! ## The direct run -/

/-- A host may have more channels than the plugin has asked for. Those are ignored. -/
def Call.seen (c : Call) (shared : AudioShmBufferConfig) : Seen where
  processMode := c.data.processMode
  symbolicSampleSize := c.data.symbolicSampleSize
  numSamples := c.data.numSamples
  inputs := c.data.inputs.mapIdx fun bus b =>
    ⟨b.silenceFlags, ((c.inputs.getD bus []).take (shared.input_offsets.getD bus []).length).map
      (List.take (copyLength c.data))⟩
  outputs := c.data.outputs.mapIdx fun bus b =>
    (b.silenceFlags, min (shared.output_offsets.getD bus []).length b.channels)
  parameterChanges := c.data.inputParameterChanges.getD []
  takesParameterChanges := c.data.outputParameterChanges.isSome
  events := c.data.inputEvents
  takesEvents := c.data.outputEvents.isSome
  processContext := c.data.processContext

def Call.finished (c : Call) (done : Done) : Call where
  data :=
    { c.data with
      outputs := setFlags c.data.outputs done.outputs
      outputParameterChanges :=
        c.data.outputParameterChanges.map (· ++ done.added.filterMap Output.queue?)
      outputEvents := c.data.outputEvents.map (· ++ done.added.filterMap Output.event?) }
  inputs := c.inputs
  outputs := overwriteAll done.samples c.outputs

section Runs
variable {σ : Type}

/-- The plugin afterwards, and the call as the host finds it. -/
def Call.direct (plugin : Plugin σ) (shared : AudioShmBufferConfig) (s : σ) (c : Call) :
    σ × Call :=
  let (s, done) := plugin.process s (c.seen shared)
  (s, c.finished done)

/-! ## The bridged run -/

/-- `arrays` shows the array of channel pointers at an address, as offsets into the shared
memory. -/
structure Wine where
  setup : Setup
  arrays : UInt64 → List UInt32

def Wine.readBus (w : Wine) (mem : List UInt8) (n : Nat) (b : AudioBusBuffers) :
    Option BusAudio := do
  let places := (w.arrays b.channelBuffers).map UInt32.toNat
  return ⟨b.silenceFlags, ← readChannels mem n b.channels places⟩

def Wine.read (w : Wine) (mem : List UInt8) (data : ProcessData) : Option Seen := do
  let inputs ← data.inputs.mapM (w.readBus mem (copyLength data))
  return {
    processMode := data.processMode
    symbolicSampleSize := data.symbolicSampleSize
    numSamples := data.numSamples
    inputs
    outputs := data.outputs.map fun b => (b.silenceFlags, b.channels)
    parameterChanges := data.inputParameterChanges.getD []
    takesParameterChanges := data.outputParameterChanges.isSome
    events := data.inputEvents
    takesEvents := data.outputEvents.isSome
    processContext := data.processContext }

/-- Where the pointers of the buses lead. -/
def Wine.place (w : Wine) (bs : List AudioBusBuffers) (k : ChannelIndex) : Option Nat := do
  let b ← bs[k.1]?
  let offset ← (w.arrays b.channelBuffers)[k.2]?
  return offset.toNat

def Wine.write (w : Wine) (data : ProcessData) (samples : Channels) (mem : List UInt8) :
    Option (List UInt8) :=
  placeAll (w.place data.outputs) (channelAt samples) mem
    (indices (data.outputs.map AudioBusBuffers.channels))

/-- The buses and the interfaces of the data are those of the object. -/
def leave (wine : YaProcessData) (done : Done) : YaProcessData :=
  done.added.foldl YaProcessData.add { wine with outputs_ := setFlags wine.outputs_ done.outputs }

structure Bridge (σ : Type) where
  native : YaProcessData
  wine : YaProcessData
  mem : List UInt8
  plugin : σ

def Bridge.call (B : Bitsery) (w : Wine) (plugin : Plugin σ) (b : Bridge σ) (c : Call) :
    Option (Bridge σ × Call) := do
  let (native, wine, data) ← request B w.setup b.native b.wine c.data
  let mem ← copyInputs native c.data w.setup.shared c.inputs b.mem
  let seen ← w.read mem data
  let (state, done) := plugin.process b.plugin seen
  let mem ← w.write data done.samples mem
  let wine := leave wine done
  let (native, host) ← respond B native wine c.data
  let outputs ← copyOutputs native c.data w.setup.shared mem c.outputs
  return (⟨native, wine, mem, state⟩, ⟨host, c.inputs, outputs⟩)

/-! ## What is expected -/

/-- The pointers lead to the channels of the shared memory. -/
structure Wine.Mapped (w : Wine) : Prop where
  inputs : w.setup.input_pointers.map w.arrays = w.setup.shared.input_offsets
  outputs : w.setup.output_pointers.map w.arrays = w.setup.shared.output_offsets
  config : w.setup.shared.Bounded

structure Call.Fits (c : Call) (setup : Setup) (done : Done) : Prop where
  data : c.data.Bounded setup
  regions : RegionsFit setup.shared (copyLength c.data)
  inputs : ChannelsValid c.data.inputs (copyLength c.data) c.inputs
  outputs : ChannelsValid c.data.outputs (copyLength c.data) c.outputs
  known : ∀ es ∈ c.data.inputEvents, ∀ e ∈ es, e.Known
  added : ∀ e ∈ done.added.filterMap Output.event?, e.Known
  parameterChanges : c.data.outputParameterChanges.isSome →
    QueuesBounded (done.added.filterMap Output.queue?)
  events : c.data.outputEvents.isSome → EventsBounded (done.added.filterMap Output.event?)

/-- The calls and what the plugin does in the direct run are within the limits. -/
def AllFit (plugin : Plugin σ) (setup : Setup) : σ → List Call → Prop :=
  Mealy.Along (Call.direct plugin setup.shared) fun s c =>
    c.Fits setup (plugin.process s (c.seen setup.shared)).2

theorem copyOutputs_length {d : YaProcessData} {host : ProcessData}
    {shared : AudioShmBufferConfig} {mem : List UInt8} {outputs outputs' : Channels}
    (h : copyOutputs d host shared mem outputs = some outputs') :
    outputs'.length = outputs.length := by
  unfold copyOutputs at h
  generalize channelIndices d.outputs_ host.outputs.length = ks at h
  induction ks generalizing outputs with
  | nil =>
    obtain rfl := Option.some.inj h
    rfl
  | cons k ks ih =>
    rw [List.foldlM_cons] at h
    obtain ⟨outputs₁, hstep, hrest⟩ := Option.bind_eq_some_iff.mp h
    have hlen : outputs₁.length = outputs.length := by
      unfold copyOutput at hstep
      simp only [Option.bind_eq_bind, Option.bind_eq_some_iff, Option.pure_def,
        Option.some.injEq] at hstep
      obtain ⟨_, _, _, _, _, _, rfl⟩ := hstep
      exact List.length_modify ..
    exact (ih hrest).trans hlen

/-! ## What the plugin reads -/

section Buses
variable {offsets : List (List UInt32)} (pointers : List UInt64)

/-- A bus of the data on the Wine side. -/
theorem seen_getElem? (hint : ∀ os ∈ offsets, os.length ≤ 8192) {host : List AudioBusBuffers}
    {bus : Nat} {b : AudioBusBuffers} (hb : host[bus]? = some b) :
    ∃ x, (setPointers (busMetadata [] offsets host) pointers)[bus]? = some x ∧
      x.silenceFlags = b.silenceFlags ∧
      x.channels = min (offsets.getD bus []).length b.channels ∧
      x.channelBuffers = pointers.getD bus 0 := by
  have hlen : (offsets.getD bus []).length ≤ 8192 := by
    rw [List.getD_eq_getElem?_getD]
    cases hos : offsets[bus]? with
    | none => exact Nat.zero_le _
    | some os => exact hint os (List.mem_of_getElem? hos)
  obtain ⟨x, hx, hcount⟩ := busMetadata_getElem? [] offsets hb
  have hflags : x.silenceFlags = b.silenceFlags := by
    unfold busMetadata at hx
    rw [List.getElem?_mapIdx, hb] at hx
    obtain rfl := Option.some.inj hx
    rfl
  refine ⟨{ x with channelBuffers := pointers.getD bus 0 }, ?_, hflags, ?_, rfl⟩
  · unfold setPointers
    rw [List.getElem?_mapIdx, hx]
    rfl
  · have hcast : (Int32.ofNat (offsets.getD bus []).length).toNatClampNeg =
        (offsets.getD bus []).length := Int32.toNatClampNeg_ofNat_of_lt (by omega)
    rw [hcast] at hcount
    exact hcount

omit pointers in
theorem arrays_getD {pointers : List UInt64} {arrays : UInt64 → List UInt32}
    (h : pointers.map arrays = offsets) {bus : Nat}
    (hbus : bus < pointers.length) :
    arrays (pointers.getD bus 0) = offsets.getD bus [] := by
  subst h
  simp [List.getD_eq_getElem?_getD, hbus]

theorem seen_counts (hint : ∀ os ∈ offsets, os.length ≤ 8192) (host : List AudioBusBuffers) :
    ((setPointers (busMetadata [] offsets host) pointers).map fun b =>
        (b.silenceFlags, b.channels)) =
      host.mapIdx fun bus b => (b.silenceFlags, min (offsets.getD bus []).length b.channels) := by
  apply List.ext_getElem?
  intro bus
  rw [List.getElem?_map, List.getElem?_mapIdx]
  cases hb : host[bus]? with
  | none =>
    have hle : (setPointers (busMetadata [] offsets host) pointers).length ≤ bus := by
      rw [setPointers_length, busMetadata_length]
      exact List.getElem?_eq_none_iff.mp hb
    rw [List.getElem?_eq_none hle]
    rfl
  | some b =>
    obtain ⟨x, hx, hflags, hcount, _⟩ := seen_getElem? pointers hint hb
    rw [hx, Option.map_some, Option.map_some, hflags, hcount]

end Buses

section Call
variable {w : Wine} {c : Call} {done : Done} (hm : w.Mapped) (hfits : c.Fits w.setup done)
include hm hfits

theorem readBus_seen {mem mem' : List UInt8}
    (hcopied : InputsCopied w.setup.shared (copyLength c.data) c.inputs mem mem') {bus : Nat}
    {b : AudioBusBuffers} (hb : c.data.inputs[bus]? = some b) {x : AudioBusBuffers}
    (hx : (c.data.seen w.setup).inputs[bus]? = some x) :
    w.readBus mem' (copyLength c.data) x =
      some ⟨b.silenceFlags,
        ((c.inputs.getD bus []).take (w.setup.shared.input_offsets.getD bus []).length).map
          (List.take (copyLength c.data))⟩ := by
  obtain ⟨x', hx', hflags, hcount, hpointer⟩ :=
    seen_getElem? w.setup.input_pointers hm.config.input hb
  obtain rfl := Option.some.inj (hx'.symm.trans hx)
  obtain ⟨chs, hchs, hlen⟩ := hfits.inputs.bus hb
  have hbus : bus < w.setup.input_pointers.length :=
    Nat.lt_of_lt_of_le (List.getElem?_eq_some_iff.mp hb).1 hfits.data.inputs.pointers
  have hbus' : bus < w.setup.shared.input_offsets.length :=
    Nat.lt_of_lt_of_le (List.getElem?_eq_some_iff.mp hb).1 hfits.data.inputs.shared
  have hgetD : c.inputs.getD bus [] = chs := by
    rw [List.getD_eq_getElem?_getD, hchs, Option.getD_some]
  obtain ⟨os, hos⟩ : ∃ os, w.setup.shared.input_offsets[bus]? = some os :=
    ⟨_, List.getElem?_eq_getElem hbus'⟩
  have harray : w.arrays x'.channelBuffers = os := by
    rw [hpointer, arrays_getD hm.inputs hbus, List.getD_eq_getElem?_getD, hos, Option.getD_some]
  rw [List.getD_eq_getElem?_getD, hos, Option.getD_some] at hcount ⊢
  have hcount' : x'.channels =
      ((chs.take os.length).map (List.take (copyLength c.data))).length := by
    rw [List.length_map, List.length_take, hcount, hlen]
  have hchannels : readChannels mem' (copyLength c.data) x'.channels (os.map UInt32.toNat) =
      some ((chs.take os.length).map (List.take (copyLength c.data))) := by
    rw [hcount']
    apply readChannels_eq
    intro i y hy
    rw [List.getElem?_map, Option.map_eq_some_iff] at hy
    obtain ⟨ch, hch, rfl⟩ := hy
    rw [List.getElem?_take] at hch
    split_ifs at hch with hlt
    obtain ⟨o, ho⟩ : ∃ o, os[i]? = some o := ⟨_, List.getElem?_eq_getElem hlt⟩
    refine ⟨o.toNat, by rw [List.getElem?_map, ho, Option.map_some], ?_⟩
    exact hcopied.regions (bus, i) ch o (channelAt_eq_some.mpr ⟨chs, hchs, hch⟩)
      (channelAt_eq_some.mpr ⟨os, hos, ho⟩)
  unfold Wine.readBus
  rw [harray, hflags, hgetD]
  simp only [hchannels, Option.bind_eq_bind, Option.bind_some, Option.pure_def]

/-- The plugin reads on the Wine side what it would read of the host's own data. -/
theorem read_seen {mem mem' : List UInt8}
    (hcopied : InputsCopied w.setup.shared (copyLength c.data) c.inputs mem mem') :
    w.read mem' (c.data.seen w.setup) = some (c.seen w.setup.shared) := by
  have hinputs : (c.data.seen w.setup).inputs.mapM (w.readBus mem' (copyLength c.data)) =
      some (c.seen w.setup.shared).inputs := by
    apply mapM_eq_some
    · simp only [ProcessData.seen, Call.seen, setPointers_length, busMetadata_length,
        List.length_mapIdx]
    · intro bus x y hx hy
      simp only [Call.seen, List.getElem?_mapIdx, Option.map_eq_some_iff] at hy
      obtain ⟨b, hb, rfl⟩ := hy
      exact readBus_seen hm hfits hcopied hb hx
  have hcounts := seen_counts w.setup.output_pointers hm.config.output c.data.outputs
  have hevents : (c.data.seen w.setup).inputEvents = c.data.inputEvents := by
    simp only [ProcessData.seen]
    cases hes : c.data.inputEvents with
    | none => rfl
    | some es =>
      have hsame := YaEventList.events_map_ofEvent (hfits.known es hes)
        ((eventsBounded_iff es).mpr (hfits.data.events es hes))
      rw [YaEventList.events, List.map_map] at hsame
      exact congrArg some hsame
  have hlength : copyLength (c.data.seen w.setup) = copyLength c.data := rfl
  unfold Wine.read
  rw [hlength, hinputs, hevents]
  simp only [Call.seen, ← hcounts, ProcessData.seen, Option.isSome_map, Option.getD_some,
    Option.bind_eq_bind, Option.bind_some, Option.pure_def]

/-! ## What the plugin writes -/

/-- As many channels as both sides have. -/
theorem seen_count (bus : Nat) :
    ((c.data.seen w.setup).outputs.map AudioBusBuffers.channels).getD bus 0 =
      min (w.setup.shared.output_offsets.getD bus []).length (c.outputs.getD bus []).length := by
  have hget : ∀ counts : List Nat, counts.getD bus 0 = counts[bus]?.getD 0 :=
    fun _ => List.getD_eq_getElem?_getD
  rw [getD_length c.outputs, hfits.outputs.channels, hget, hget, List.getElem?_map,
    List.getElem?_map]
  cases hb : c.data.outputs[bus]? with
  | none =>
    have hle : (c.data.seen w.setup).outputs.length ≤ bus := by
      simp only [ProcessData.seen, setPointers_length, busMetadata_length]
      exact List.getElem?_eq_none_iff.mp hb
    rw [List.getElem?_eq_none hle]
    exact (Nat.min_zero _).symm
  | some b =>
    obtain ⟨x, hx, _, hcount, _⟩ := seen_getElem? w.setup.output_pointers hm.config.output hb
    simp only [ProcessData.seen, hx, Option.map_some, Option.getD_some, hcount]

theorem filled_iff (k : ChannelIndex) :
    k ∈ indices ((c.data.seen w.setup).outputs.map AudioBusBuffers.channels) ↔
      (channelAt c.outputs k).isSome ∧ (channelAt w.setup.shared.output_offsets k).isSome := by
  rw [mem_indices, seen_count hm hfits, Nat.lt_min, channelAt_isSome, channelAt_isSome, and_comm]

theorem place_seen {k : ChannelIndex}
    (hk : k ∈ indices ((c.data.seen w.setup).outputs.map AudioBusBuffers.channels)) :
    ∃ o, channelAt w.setup.shared.output_offsets k = some o ∧
      w.place (c.data.seen w.setup).outputs k = some o.toNat := by
  obtain ⟨hch, hoffset⟩ := (filled_iff hm hfits k).mp hk
  obtain ⟨o, ho⟩ := Option.isSome_iff_exists.mp hoffset
  obtain ⟨ch, hch⟩ := Option.isSome_iff_exists.mp hch
  obtain ⟨chs, hchs, _⟩ := channelAt_eq_some.mp hch
  obtain ⟨os, hos, hat⟩ := channelAt_eq_some.mp ho
  have hin : k.1 < c.data.outputs.length := by
    have hlength := congrArg List.length hfits.outputs.channels
    rw [List.length_map, List.length_map] at hlength
    exact hlength ▸ (List.getElem?_eq_some_iff.mp hchs).1
  obtain ⟨x, hx, _, _, hpointer⟩ := seen_getElem? w.setup.output_pointers hm.config.output
    (List.getElem?_eq_getElem hin)
  have harray : w.arrays x.channelBuffers = os := by
    rw [hpointer, arrays_getD hm.outputs (Nat.lt_of_lt_of_le hin hfits.data.outputs.pointers),
      List.getD_eq_getElem?_getD, hos, Option.getD_some]
  refine ⟨o, ho, ?_⟩
  simp only [Wine.place, ProcessData.seen, hx, harray, hat, Option.bind_eq_bind, Option.bind_some,
    Option.pure_def]

/-- The region of each channel that the plugin fills holds its samples. -/
theorem write_stored {mem : List UInt8} (hmem : mem.length = w.setup.shared.size.toNat)
    {samples : Channels}
    (hchannels : samples.map List.length =
      (c.data.seen w.setup).outputs.map AudioBusBuffers.channels)
    (hlen : ∀ ch ∈ samples.flatten, ch.length = copyLength c.data) :
    ∃ mem', w.write (c.data.seen w.setup) samples mem = some mem' ∧ mem'.length = mem.length ∧
      ∀ k ch o, channelAt samples k = some ch →
        channelAt w.setup.shared.output_offsets k = some o →
        load mem' o.toNat (copyLength c.data) = some ch := by
  have hapart := hfits.regions.apart
  rw [List.map_append] at hapart
  have hroom : ∀ k o, channelAt w.setup.shared.output_offsets k = some o →
      o.toNat + copyLength c.data ≤ mem.length := by
    intro k o ho
    rw [hmem]
    exact hfits.regions.output_room ho
  have hle : ∀ k ch, channelAt samples k = some ch → ch.length ≤ copyLength c.data :=
    fun _ ch hch => Nat.le_of_eq (hlen ch (mem_flatten_of_channelAt hch))
  obtain ⟨mem', hmem', hlength, hloads⟩ := placeAll_channels (List.pairwise_append.mp hapart).2.1
    hroom hchannels hle fun _ hk => place_seen hm hfits hk
  refine ⟨mem', hmem', hlength, ?_⟩
  intro k ch o hch ho
  have hload := hloads k ch o hch ho
  rwa [hlen ch (mem_flatten_of_channelAt hch)] at hload

/-! ## What the host finds -/

/-- The samples that come back are those of the plugin, in the channels that it was given. -/
theorem outputs_finished {mem : List UInt8} {outputs' : Channels}
    (hlength : outputs'.length = c.outputs.length)
    (hchannels : done.samples.map List.length =
      (c.data.seen w.setup).outputs.map AudioBusBuffers.channels)
    (hstored : ∀ k ch o, channelAt done.samples k = some ch →
      channelAt w.setup.shared.output_offsets k = some o →
      load mem o.toNat (copyLength c.data) = some ch)
    (hcopied : OutputsCopied w.setup.shared (copyLength c.data) mem c.outputs outputs') :
    outputs' = (c.finished done).outputs := by
  have hfilled : ∀ k, (channelAt done.samples k).isSome ↔
      (channelAt c.outputs k).isSome ∧ (channelAt w.setup.shared.output_offsets k).isSome :=
    fun k => (channelAt_isSome_iff hchannels).trans (filled_iff hm hfits k)
  apply eq_overwriteAll hlength
  · intro k s ch hs hch
    obtain ⟨o, ho⟩ := Option.isSome_iff_exists.mp ((hfilled k).mp (hs ▸ rfl)).2
    obtain ⟨s', hload, hat⟩ := hcopied.copied k ch o hch ho
    obtain rfl := Option.some.inj (hload.symm.trans (hstored k s o hs ho))
    exact hat
  · intro k hnone
    apply hcopied.others
    rcases hnone with hnone | hnone
    · cases hch : channelAt c.outputs k with
      | none => exact Or.inl rfl
      | some ch =>
        refine Or.inr (Option.not_isSome_iff_eq_none.mp ?_)
        intro ho
        have hsome := (hfilled k).mpr ⟨hch ▸ rfl, ho⟩
        rw [hnone] at hsome
        cases hsome
    · exact Or.inl hnone

omit hm in
theorem respond_finished (B : Bitsery) {native wine : YaProcessData}
    (h : Requested c.data w.setup native wine (c.data.seen w.setup))
    (hbuses : done.outputs.length = wine.outputs_.length) :
    ∃ native', respond B native (leave wine done) c.data =
        some (native', (c.finished done).data) ∧
      native'.Sendable ∧
      native'.outputs_.map (·.numChannels) = wine.outputs_.map (·.numChannels) := by
  set wine₁ : YaProcessData := { wine with outputs_ := setFlags wine.outputs_ done.outputs }
    with hwine₁
  have hlen₁ : wine₁.outputs_.length = wine.outputs_.length := by
    simp only [hwine₁, setFlags, List.length_zipWith, hbuses, Nat.min_self]
  have h₁ : Requested c.data w.setup native wine₁ (c.data.seen w.setup) :=
    ⟨h.data, h.native_outputs, hlen₁.trans h.outputs, h.parameterChanges, h.events⟩
  have hleave : (leave wine done).outputs_ = setFlags wine.outputs_ done.outputs := by
    rw [leave, foldl_add]
  have hfit : (YaProcessData.Response.serialize B).fits (leave wine done) :=
    (h₁.response_fits done.added hfits.data.outputs.sent).mpr
      ⟨hfits.parameterChanges, hfits.events⟩
  set native' := (YaProcessData.Response.serialize B).put native (leave wine done) with hnative'
  have hput : native'.outputs_ = (buses B).put native.outputs_ (leave wine done).outputs_ := by
    rw [hnative', YaProcessData.Response.serialize_put]
  have hbusCount : native'.outputs_.length = c.data.outputs.length := by
    rw [hput, buses_put_length, hleave]
    exact hlen₁.trans h.outputs
  obtain ⟨host', hback⟩ : ∃ host', native'.write_back_outputs c.data = some host' :=
    ⟨_, YaProcessData.write_back_outputs_eq_some.mpr ⟨hbusCount, rfl⟩⟩
  have hresp : respond B native (leave wine done) c.data = some (native', host') :=
    respond_eq_some.mpr ⟨hfit, hnative', hback⟩
  obtain ⟨hqueues, hevents⟩ := h₁.received hfits.added hfits.events hresp
  obtain ⟨_, hhost⟩ := YaProcessData.write_back_outputs_eq_some.mp hback
  have hflags : native'.outputs_.map (·.silenceFlags) = done.outputs.map BusAudio.silenceFlags := by
    rw [hput, map_buses_put B fun _ _ => rfl, hleave]
    exact map_update_set withFlags (fun _ _ => rfl) hbuses
  have houtputs : host'.outputs = setFlags c.data.outputs done.outputs := by
    rw [hhost]
    exact update_congr withFlags hflags
  have hfinished : host' = (c.finished done).data :=
    calc
      host' =
          { c.data with
            outputs := host'.outputs
            outputParameterChanges := host'.outputParameterChanges
            outputEvents := host'.outputEvents } := by rw [hhost]
      _ = (c.finished done).data := by
        rw [houtputs, hqueues, hevents]
        rfl
  rw [hfinished] at hresp
  refine ⟨native', hresp, ?_, ?_⟩
  · rw [YaProcessData.Response.serialize_fits] at hfit
    rw [hnative', YaProcessData.Response.serialize_put]
    exact ⟨hfit.2.1, hfit.2.2⟩
  · rw [hput, map_buses_put B fun _ _ => rfl, hleave]
    exact map_update_kept withFlags (fun _ _ => rfl) hbuses

end Call

/-! ## Whole runs -/

/-- The buses that the two objects hold during a call. -/
theorem request_buses {B : Bitsery} {setup : Setup} {native wine native' wine' : YaProcessData}
    {host data : ProcessData}
    (h : request B setup native wine host = some (native', wine', data)) :
    native'.inputs_ = busMetadata native.inputs_ setup.shared.input_offsets host.inputs ∧
      native'.outputs_ = busMetadata native.outputs_ setup.shared.output_offsets host.outputs ∧
      wine'.outputs_ = data.outputs ∧
      data.outputs.map (·.numChannels) = native'.outputs_.map (·.numChannels) := by
  obtain ⟨hn, _, hw⟩ := request_eq_some.mp h
  obtain ⟨_, rfl⟩ := YaProcessData.repopulate_eq_some.mp hn
  obtain ⟨_, heq⟩ := YaProcessData.reconstruct_eq_some.mp hw
  obtain ⟨rfl, rfl⟩ := Prod.mk.inj heq
  refine ⟨rfl, rfl, rfl, ?_⟩
  apply List.ext_getElem?
  intro bus
  simp only [setPointers, List.getElem?_map, List.getElem?_mapIdx, Option.map_map]
  rfl

/-- A bridge between two calls. -/
structure Bridge.Ready (w : Wine) (b : Bridge σ) : Prop where
  native : b.native.Sendable
  mem : b.mem.length = w.setup.shared.size.toNat

variable {w : Wine} (hm : w.Mapped) {plugin : Plugin σ}
include hm

theorem call_implements (B : Bitsery) :
    Mealy.Implements (Call.direct plugin w.setup.shared) (Bridge.call B w plugin) Bridge.plugin
      (Bridge.Ready w)
      fun s c => c.Fits w.setup (plugin.process s (c.seen w.setup.shared)).2 := by
  intro b c hb hfits
  obtain ⟨n, wine, data, hreq⟩ : ∃ n wine data,
      request B w.setup b.native b.wine c.data = some (n, wine, data) :=
    request_of_bounded hb.native hfits.data
  obtain ⟨_, hrequested⟩ := requested_of_request hb.native hreq
  obtain rfl := hrequested.data
  obtain ⟨hinputs, houtputs, hwine, hcounts⟩ := request_buses hreq
  obtain ⟨mem₁, hmem₁, hcopied⟩ :=
    copyInputs_copied hfits.regions hb.mem hfits.data.inputs.shared hinputs hfits.inputs
  have hread := read_seen hm hfits hcopied
  cases hdone : plugin.process b.plugin (c.seen w.setup.shared) with
  | mk s done =>
    rw [hdone] at hfits
    have hchannels : done.samples.map List.length =
        (c.data.seen w.setup).outputs.map AudioBusBuffers.channels := by
      have hshape := plugin.channels b.plugin (c.seen w.setup.shared)
      have hseen := seen_counts w.setup.output_pointers hm.config.output c.data.outputs
      rw [hdone] at hshape
      rw [hshape, Call.seen, ← hseen, List.map_map]
      rfl
    have hlen : ∀ ch ∈ done.samples.flatten, ch.length = copyLength c.data := by
      have hsamples := plugin.samples b.plugin (c.seen w.setup.shared)
      rw [hdone] at hsamples
      exact hsamples
    obtain ⟨mem₂, hmem₂, hlength, hstored⟩ := write_stored hm hfits
      (hcopied.length.trans hb.mem) hchannels hlen
    have hbuses : done.outputs.length = wine.outputs_.length := by
      have hcount := congrArg List.length hchannels
      simpa only [Done.samples, List.length_map, hwine] using hcount
    obtain ⟨n', hresp, hsendable, hsame⟩ := respond_finished hfits B hrequested hbuses
    rw [hwine, hcounts, houtputs] at hsame
    obtain ⟨outputs', houtputs', hcopied'⟩ := copyOutputs_copied hfits.regions
      (hlength.trans (hcopied.length.trans hb.mem)) hfits.data.outputs.shared hsame hfits.outputs
    have hfinished := outputs_finished hm hfits (copyOutputs_length houtputs') hchannels
      hstored hcopied'
    have hdirect : Call.direct plugin w.setup.shared b.plugin c = (s, c.finished done) := by
      unfold Call.direct
      rw [hdone]
    rw [hdirect]
    refine ⟨⟨n', leave wine done, mem₂, s⟩, ?_, rfl, hsendable, ?_⟩
    · unfold Bridge.call
      simp only [hreq, hmem₁, hread, hdone, hmem₂, hresp, houtputs', Option.bind_eq_bind,
        Option.bind_some, Option.pure_def, hfinished]
      rfl
    · exact hlength.trans (hcopied.length.trans hb.mem)

/-- Over any calls within the limits, the host cannot tell a plugin behind the bridge from one
that it runs itself, and the plugin ends in the same state. -/
theorem bridged_eq_direct (B : Bitsery) {mem : List UInt8}
    (hmem : mem.length = w.setup.shared.size.toNat) (s : σ) {cs : List Call}
    (hfits : AllFit plugin w.setup s cs) :
    (Mealy.tryRun (Bridge.call B w plugin) ⟨.fresh, .fresh, mem, s⟩ cs).map
        (fun r => (r.1.plugin, r.2)) =
      some (Mealy.run (Call.direct plugin w.setup.shared) s cs) :=
  (call_implements hm B).tryRun ⟨YaProcessData.sendable_fresh, hmem⟩ hfits

end Runs

/-- It fills its channels with the number of the call, and reports a parameter each time. -/
def counter : Plugin Nat where
  process s x :=
    (s + 1,
      { outputs := x.outputs.map fun o =>
          ⟨0, List.replicate o.2 (List.replicate x.channelLength (UInt8.ofNat s))⟩
        added := [.queue ⟨7, []⟩] })
  channels s x := by
    simp [Done.samples, Function.comp_def]
  samples s x ch hch := by
    simp only [Done.samples, List.map_map, List.mem_flatten, List.mem_map] at hch
    obtain ⟨_, ⟨o, _, rfl⟩, hch⟩ := hch
    rw [List.eq_of_mem_replicate hch, List.length_replicate]

/-- The host has a channel more than the plugin has asked for. -/
def stereoCall : Call :=
  ⟨{ stereoHost 0 with outputParameterChanges := some [] }, stereoChannels, [[List.replicate 8 0]]⟩

def monoWine : Wine := ⟨⟨monoShared, [1], [2]⟩, fun pointer => if pointer = 1 then [0] else [16]⟩

theorem bridged_eq_direct_counter :
    (Mealy.tryRun (Bridge.call .default monoWine counter)
        ⟨.fresh, .fresh, List.replicate 32 0, 1⟩ [stereoCall, stereoCall]).map
        (fun r => (r.1.plugin, r.2)) =
      some (Mealy.run (Call.direct counter monoShared) 1 [stereoCall, stereoCall]) ∧
    (Mealy.run (Call.direct counter monoShared) 1 [stereoCall, stereoCall]).2.map Call.outputs =
      [[[List.replicate 8 1]], [[List.replicate 8 2]]] := by
  have hm : monoWine.Mapped := ⟨rfl, rfl, by decide, by decide, by decide, by decide, by decide⟩
  have hcopy : copyLength stereoCall.data = 8 := copyLength_eq (by decide)
  have hfits : ∀ s, stereoCall.Fits monoWine.setup
      (counter.process s (stereoCall.seen monoShared)).2 := by
    intro s
    constructor
    case data =>
      have hinputs : BusesBounded stereoCall.data.inputs [[0]] [1] :=
        ⟨by decide, by decide, by decide⟩
      have houtputs : BusesBounded stereoCall.data.outputs [[16]] [2] :=
        ⟨by decide, by decide, by decide⟩
      exact ⟨hinputs, houtputs, fun _ h => (Option.not_mem_none _ h).elim,
        fun _ h => (Option.not_mem_none _ h).elim⟩
    case regions =>
      rw [hcopy]
      exact regionsFit_monoShared (by decide)
    case inputs =>
      rw [hcopy]
      exact channelsValid_of_le rfl (by decide)
    case outputs =>
      rw [hcopy]
      exact channelsValid_of_le rfl (by decide)
    case known => exact fun _ h => (Option.not_mem_none _ h).elim
    case added => exact fun _ h => (List.not_mem_nil h).elim
    case parameterChanges =>
      intro _
      exact ⟨Nat.le_add_left 1 _, by simp [counter, Output.queue?]⟩
    case events => exact fun h => absurd h Bool.false_ne_true
  exact ⟨bridged_eq_direct hm .default rfl 1 ⟨hfits 1, hfits 2, trivial⟩, by decide⟩

end Vst3.Transparency
