import Wasivst.ChannelCopies
import Wasivst.Clap.ProcessCycles

/-!
# The audio copies of a CLAP cycle

The copy loops of `Process::repopulate` and `Process::write_back_outputs` over the bytes of the
shared memory. Every port has a format of its own. The loops over the input channels go by the
host's counts, those over the output channels by the counts in the `Process` object.
-/

set_option autoImplicit false

namespace Clap
open Regions ChannelCopies
open Vst3 (Channels ChannelIndex channelAt RegionsFit)

/-- The format that the host has chosen for a port. -/
def AudioBuffer.type (h : AudioBuffer) : UInt8 := portType AudioBufferType.Float32 h

/-- What `std::copy_n` of that many samples moves. -/
def channelLength (frames : UInt32) (type : UInt8) : Nat :=
  frames.toNat * if type = AudioBufferType.Double64 then 8 else 4

def AudioBuffer.channels (b : AudioBuffer) : Nat := b.channel_count.toNat

/-- The format of a port and the pointers of its channels, by the pointer that is set. -/
def AudioBuffer.pointers (b : AudioBuffer) : UInt8 × List UInt64 :=
  match b.data32, b.data64 with
  | some ps, _ => (AudioBufferType.Float32, ps)
  | none, some ps => (AudioBufferType.Double64, ps)
  | none, none => (AudioBufferType.Float32, [])

/-- The samples that are read of the host's input channels. -/
def taken (process : ClapProcess) (inputs : Channels) : Channels :=
  inputs.mapIdx fun port chs =>
    chs.map (List.take (channelLength process.frames_count
      (process.audio_inputs.getD port default).type))

/-- Where the shared buffers have a channel. -/
def shmPlace (offsets : List (List UInt32)) (k : ChannelIndex) : Option Nat :=
  (channelAt offsets k).map UInt32.toNat

/-- The shared memory after `repopulate`. A port without pointers is not copied. -/
def copyInputs (process : ClapProcess) (shared : AudioShmBufferConfig) (inputs : Channels)
    (mem : List UInt8) : Option (List UInt8) :=
  placeAll (shmPlace shared.input_offsets) (channelAt (taken process inputs)) mem
    (indices (process.audio_inputs.map fun h => if h.hasData then h.channels else 0))

/-- The host's channels after `write_back_outputs`. -/
def copyOutputs (p : Process) (process : ClapProcess) (shared : AudioShmBufferConfig)
    (mem : List UInt8) (outputs : Channels) : Option Channels :=
  fetchAll (shmPlace shared.output_offsets)
    (fun k => channelLength process.frames_count
      (p.audio_outputs_type_.getD k.1 AudioBufferType.Float32))
    mem outputs (indices (p.audio_outputs_.map AudioBuffer.channels))

/-- The pointers of the ports show a buffer for each channel, with room for the samples, and a port
with channels has exactly one of the pointers. -/
structure PortsValid (hs : List AudioBuffer) (frames : UInt32) (chs : Channels) : Prop where
  channels : chs.map List.length = hs.map AudioBuffer.channels
  samples : ∀ k ch h, channelAt chs k = some ch → hs[k.1]? = some h →
    channelLength frames h.type ≤ ch.length
  format : ∀ h ∈ hs, h.channel_count ≠ 0 → h.data32.isSome ≠ h.data64.isSome

/-! ## Formats -/

/-- The format of a port with channels is sent, whatever its place in the list held. -/
theorem portType_eq {h : AudioBuffer} (hdata : h.hasData) (old : UInt8) :
    portType old h = h.type := by
  unfold AudioBuffer.type portType
  unfold AudioBuffer.hasData at hdata
  rw [Bool.or_eq_true] at hdata
  by_cases h32 : h.data32.isSome
  · rw [if_pos h32, if_pos h32]
  · have h64 := hdata.resolve_left h32
    rw [if_neg h32, if_pos h64, if_neg h32, if_pos h64]

theorem minUInt32_toNat {n : Nat} (hn : n ≤ 8192) (c : UInt32) :
    (minUInt32 (UInt32.ofNat n) c).toNat = min n c.toNat := by
  have hcast : (UInt32.ofNat n).toNat = n := by
    rw [UInt32.toNat_ofNat']
    omega
  unfold minUInt32
  split_ifs with hlt
  · rw [UInt32.lt_iff_toNat_lt, hcast] at hlt
    exact (Nat.min_eq_right (Nat.le_of_lt hlt)).symm
  · rw [UInt32.lt_iff_toNat_lt, hcast, Nat.not_lt] at hlt
    rw [hcast, Nat.min_eq_left hlt]

/-- The pointer that is set tells the format. -/
theorem pointers_setPointer {h : AudioBuffer} (hdata : h.hasData) {ps : List UInt64} (hps : ps ≠ [])
    (b : AudioBuffer) (old : UInt8) :
    (setPointer b.cleared (portType old h) (dataPointer ps)).pointers = (h.type, ps) := by
  have hpointer : dataPointer ps = some ps := by
    unfold dataPointer
    rw [if_neg]
    rwa [List.isEmpty_iff]
  rw [portType_eq hdata, hpointer]
  unfold setPointer
  split_ifs with htype
  · rw [htype]
    rfl
  · have hother : h.type = AudioBufferType.Float32 := by
      unfold AudioBuffer.type portType at htype ⊢
      split_ifs at htype ⊢
      · rfl
      · exact absurd rfl htype
      · rfl
    rw [hother]
    rfl

/-- A port of the data on the Wine side. -/
theorem setPointers_getElem? {offsets : List (List UInt32)}
    (hint : ∀ os ∈ offsets, os.length ≤ 8192) (olds : List AudioBuffer) (ts : List UInt8)
    (pointers : List (List UInt64)) {host : List AudioBuffer} {port : Nat} {h : AudioBuffer}
    (hh : host[port]? = some h) :
    ∃ b, (setPointers ((portMetadata olds offsets host).map AudioBuffer.cleared)
        (portTypes ts host) pointers)[port]? = some b ∧
      b.latency = h.latency ∧ b.constant_mask = h.constant_mask ∧
      b.channels = min (offsets.getD port []).length h.channels ∧
      (h.hasData → pointers.getD port [] ≠ [] → b.pointers = (h.type, pointers.getD port [])) := by
  have hlen : (offsets.getD port []).length ≤ 8192 := by
    rw [List.getD_eq_getElem?_getD]
    cases hos : offsets[port]? with
    | none => exact Nat.zero_le _
    | some os => exact hint os (List.mem_of_getElem? hos)
  have htype : (portTypes ts host).getD port AudioBufferType.Float32 =
      portType (ts.getD port AudioBufferType.Float32) h := by
    rw [List.getD_eq_getElem?_getD, portTypes, List.getElem?_mapIdx, hh]
    rfl
  simp only [setPointers, portMetadata, List.getElem?_mapIdx, List.getElem?_map, hh,
    Option.map_some, htype]
  have hkept : ∀ (b : AudioBuffer) (type : UInt8) (pointer : Option (List UInt64)),
      (setPointer b.cleared type pointer).latency = b.latency ∧
        (setPointer b.cleared type pointer).constant_mask = b.constant_mask ∧
        (setPointer b.cleared type pointer).channels = b.channels := by
    intro b type pointer
    unfold setPointer
    split_ifs <;> exact ⟨rfl, rfl, rfl⟩
  refine ⟨_, rfl, (hkept _ _ _).1, (hkept _ _ _).2.1, ?_, ?_⟩
  · rw [(hkept _ _ _).2.2]
    exact minUInt32_toNat hlen h.channel_count
  · intro hdata hps
    exact pointers_setPointer hdata hps _ _

section Ports
variable {hs : List AudioBuffer} {frames : UInt32} {chs : Channels}

theorem PortsValid.port (hv : PortsValid hs frames chs) {k : ChannelIndex} {ch : List UInt8}
    (hch : channelAt chs k = some ch) :
    ∃ h b, hs[k.1]? = some h ∧ chs[k.1]? = some b ∧ b.length = h.channels ∧ k.2 < h.channels := by
  obtain ⟨b, hb, hin⟩ := Vst3.channelAt_eq_some.mp hch
  have hcounts := congrArg (fun l => l[k.1]?) hv.channels
  simp only [List.getElem?_map, hb, Option.map_some] at hcounts
  obtain ⟨h, hh, hcount⟩ := Option.map_eq_some_iff.mp hcounts.symm
  exact ⟨h, b, hh, hb, hcount.symm, hcount ▸ (List.getElem?_eq_some_iff.mp hin).1⟩

theorem PortsValid.count (hv : PortsValid hs frames chs) {port : Nat} {h : AudioBuffer}
    (hh : hs[port]? = some h) : (chs.getD port []).length = h.channels := by
  rw [getD_length, hv.channels, List.getD_eq_getElem?_getD, List.getElem?_map, hh]
  rfl

theorem PortsValid.hasData (hv : PortsValid hs frames chs) {h : AudioBuffer} (hh : h ∈ hs)
    (hpos : 0 < h.channels) : h.hasData := by
  apply (hasData_of_format (hv.format h hh)).resolve_right
  intro hzero
  rw [AudioBuffer.channels, hzero] at hpos
  exact Nat.lt_irrefl 0 hpos

/-- The ports without pointers have no channels. -/
theorem PortsValid.counts (hv : PortsValid hs frames chs) :
    (hs.map fun h => if h.hasData then h.channels else 0) = hs.map AudioBuffer.channels := by
  apply List.map_congr_left
  intro h hh
  split_ifs with hdata
  · rfl
  · by_contra hne
    exact hdata (hv.hasData hh (Nat.pos_of_ne_zero (Ne.symm hne)))

end Ports

theorem channelAt_taken (process : ClapProcess) (inputs : Channels) (k : ChannelIndex) :
    channelAt (taken process inputs) k =
      (channelAt inputs k).map (List.take (channelLength process.frames_count
        (process.audio_inputs.getD k.1 default).type)) := by
  unfold taken
  rw [channelAt, List.getElem?_mapIdx]
  unfold channelAt
  cases inputs[k.1]? with
  | none => rfl
  | some chs => rw [Option.map_some, Option.bind_some, Option.bind_some, List.getElem?_map]

theorem taken_counts (process : ClapProcess) (inputs : Channels) :
    (taken process inputs).map List.length = inputs.map List.length := by
  apply List.ext_getElem?
  intro port
  simp only [taken, List.getElem?_map, List.getElem?_mapIdx]
  cases inputs[port]? with
  | none => rfl
  | some chs => simp only [Option.map_some, List.length_map]

theorem taken_length {process : ClapProcess} {inputs : Channels}
    (hv : PortsValid process.audio_inputs process.frames_count inputs) {k : ChannelIndex}
    {ch : List UInt8} (hch : channelAt (taken process inputs) k = some ch) :
    ∃ h, process.audio_inputs[k.1]? = some h ∧
      ch.length = channelLength process.frames_count h.type := by
  rw [channelAt_taken, Option.map_eq_some_iff] at hch
  obtain ⟨ch, hat, rfl⟩ := hch
  obtain ⟨h, _, hh, _⟩ := hv.port hat
  refine ⟨h, hh, ?_⟩
  rw [List.getD_eq_getElem?_getD, hh, Option.getD_some, List.length_take]
  exact Nat.min_eq_left (hv.samples k ch h hat hh)

/-! ## The copies -/

section Copies
variable {process : ClapProcess} {shared : AudioShmBufferConfig} {mem : List UInt8} {n : Nat}
variable (hfit : RegionsFit shared n) (hmem : mem.length = shared.size.toNat)
include hfit hmem

/-- The samples of every input channel are in its region. -/
theorem copyInputs_copied {inputs : Channels}
    (hv : PortsValid process.audio_inputs process.frames_count inputs)
    (hn : ∀ h ∈ process.audio_inputs, channelLength process.frames_count h.type ≤ n)
    (hshared : ∀ k, (channelAt inputs k).isSome → (channelAt shared.input_offsets k).isSome) :
    ∃ mem', copyInputs process shared inputs mem = some mem' ∧ mem'.length = mem.length ∧
      ∀ k ch o, channelAt (taken process inputs) k = some ch →
        channelAt shared.input_offsets k = some o → load mem' o.toNat ch.length = some ch := by
  have hapart := hfit.apart
  rw [List.map_append] at hapart
  have hroom : ∀ k o, channelAt shared.input_offsets k = some o → o.toNat + n ≤ mem.length := by
    intro k o ho
    rw [hmem]
    exact hfit.input_room ho
  have hcounts : (taken process inputs).map List.length =
      process.audio_inputs.map fun h => if h.hasData then h.channels else 0 :=
    (taken_counts process inputs).trans (hv.channels.trans hv.counts.symm)
  have hlen : ∀ k ch, channelAt (taken process inputs) k = some ch → ch.length ≤ n := by
    intro k ch hch
    obtain ⟨h, hh, heq⟩ := taken_length hv hch
    rw [heq]
    exact hn h (List.mem_of_getElem? hh)
  apply placeAll_channels (List.pairwise_append.mp hapart).1 hroom hcounts hlen
  intro k hk
  have hsome := (channelAt_isSome_iff hcounts).mpr hk
  rw [channelAt_taken, Option.isSome_map] at hsome
  obtain ⟨o, ho⟩ := Option.isSome_iff_exists.mp (hshared k hsome)
  refine ⟨o, ho, ?_⟩
  rw [shmPlace, ho, Option.map_some]

end Copies
end Clap
