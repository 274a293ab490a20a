import Wasivst.Clap.Process

/-!
# What `Process::repopulate` indexes

The lookups that `repopulate` makes in the configuration of the shared buffers, in its order, for
a host with any ports: the counts of channels that it asks for, and the channels that it copies
the input audio to.
-/

set_option autoImplicit false

namespace Clap

/-- `type` is the sample type that a channel is copied as. -/
inductive ShmAccess
  | num_input_channels (port : Nat)
  | input_channel_ptr (type : UInt8) (port channel : Nat)
  | num_output_channels (port : Nat)
  deriving DecidableEq

namespace ShmAccess

/-- The vectors of the configuration have the index. -/
def Configured (shared : AudioShmBufferConfig) : ShmAccess → Prop
  | num_input_channels port => port < shared.input_offsets.length
  | input_channel_ptr _ port channel =>
    ∃ offsets, shared.input_offsets[port]? = some offsets ∧ channel < offsets.length
  | num_output_channels port => port < shared.output_offsets.length

def channelOf (port : Nat) : ShmAccess → Option Nat
  | input_channel_ptr _ p channel => if p = port then some channel else none
  | _ => none

end ShmAccess

namespace Process
open ShmAccess

/-- One pass of the loop over the input ports. The loop over the channels takes the host's count. -/
def inputAccesses (port : Nat) (h : AudioBuffer) : List ShmAccess :=
  let copies := fun type =>
    (List.range h.channel_count.toNat).map fun channel => input_channel_ptr type port channel
  num_input_channels port ::
    if h.data32.isSome then copies AudioBufferType.Float32
    else if h.data64.isSome then copies AudioBufferType.Double64
    else []

def accesses (process : ClapProcess) : List ShmAccess :=
  ((List.range process.audio_inputs.length).flatMap fun port =>
    inputAccesses port (process.audio_inputs.getD port default)) ++
  (List.range process.outputs.length).map fun port => num_output_channels port

/-- The channels of a port that are copied, in the order of the copies. -/
def copied (process : ClapProcess) (port : Nat) : List Nat :=
  (accesses process).filterMap (channelOf port)

/-- The assertions at the ends of the two loops. -/
def Asserted (process : ClapProcess) : Prop :=
  ∀ h ∈ process.audio_inputs ++ process.outputs, h.hasData ∨ h.channel_count = 0

/-- The channels that the host has on a port; a port that it does not have has none. -/
def hostChannels (process : ClapProcess) (port : Nat) : Nat :=
  (process.audio_inputs[port]?).elim 0 fun h => h.channel_count.toNat

structure StaysInside (process : ClapProcess) (shared : AudioShmBufferConfig) : Prop where
  configured : ∀ a ∈ accesses process, a.Configured shared
  copies : ∀ port offsets, shared.input_offsets[port]? = some offsets →
    copied process port = List.range (min (hostChannels process port) offsets.length)

/-- Neither ports nor input channels that were not set up. -/
structure Fits (process : ClapProcess) (shared : AudioShmBufferConfig) : Prop where
  inputs : process.audio_inputs.length ≤ shared.input_offsets.length
  outputs : process.outputs.length ≤ shared.output_offsets.length
  channels : ∀ p ∈ process.audio_inputs.zip shared.input_offsets,
    p.1.channel_count.toNat ≤ p.2.length

theorem inputAccesses_eq {h : AudioBuffer} (hdata : h.hasData ∨ h.channel_count = 0) (port : Nat) :
    inputAccesses port h = num_input_channels port ::
      (List.range h.channel_count.toNat).map (input_channel_ptr (portType 0 h) port) := by
  unfold inputAccesses portType
  split_ifs with h32 h64
  · rfl
  · rfl
  · have hzero : h.channel_count = 0 := by
      simpa [AudioBuffer.hasData, h32, h64] using hdata
    rw [hzero]
    rfl

theorem asserted_input {process : ClapProcess} (ha : Asserted process) {port : Nat}
    {h : AudioBuffer} (hh : process.audio_inputs[port]? = some h) :
    h.hasData ∨ h.channel_count = 0 :=
  ha h (List.mem_append_left _ (List.mem_of_getElem? hh))

theorem getD_of_lt {process : ClapProcess} {port : Nat} (hp : port < process.audio_inputs.length) :
    process.audio_inputs[port]? = some (process.audio_inputs.getD port default) := by
  simp [hp]

theorem mem_accesses {process : ClapProcess} {a : ShmAccess} :
    a ∈ accesses process ↔
      (∃ port h, process.audio_inputs[port]? = some h ∧ a ∈ inputAccesses port h) ∨
        ∃ port < process.outputs.length, num_output_channels port = a := by
  simp only [accesses, List.mem_append, List.mem_flatMap, List.mem_map, List.mem_range]
  apply or_congr _ Iff.rfl
  constructor
  · rintro ⟨port, hp, ha⟩
    exact ⟨port, _, getD_of_lt hp, ha⟩
  · rintro ⟨port, h, hh, ha⟩
    have hp := (List.getElem?_eq_some_iff.mp hh).1
    rw [getD_of_lt hp, Option.some.injEq] at hh
    exact ⟨port, hp, by rwa [hh]⟩

theorem mem_zip_iff {α β : Type} {xs : List α} {ys : List β} {p : α × β} :
    p ∈ xs.zip ys ↔ ∃ i : Nat, xs[i]? = some p.1 ∧ ys[i]? = some p.2 := by
  simp only [List.mem_iff_getElem?, List.getElem?_zip_eq_some]

/-- Every lookup is one of a configured port or channel as long as the host has no others. -/
theorem configured_iff {process : ClapProcess} (ha : Asserted process)
    (shared : AudioShmBufferConfig) :
    (∀ a ∈ accesses process, a.Configured shared) ↔ Fits process shared := by
  constructor
  · intro h
    refine ⟨?_, ?_, ?_⟩
    · apply Nat.le_of_not_lt
      intro hlt
      have hmem := mem_accesses.mpr (.inl ⟨_, _, getD_of_lt hlt, List.mem_cons_self⟩)
      exact Nat.lt_irrefl _ (h _ hmem)
    · apply Nat.le_of_not_lt
      intro hlt
      have hmem := mem_accesses.mpr (.inr ⟨_, hlt, rfl⟩)
      exact Nat.lt_irrefl _ (h _ hmem)
    · intro p hp
      obtain ⟨port, hport, hoffsets⟩ := mem_zip_iff.mp hp
      apply Nat.le_of_not_lt
      intro hlt
      have hmem : input_channel_ptr (portType 0 p.1) port p.2.length ∈ accesses process := by
        refine mem_accesses.mpr (.inl ⟨port, p.1, hport, ?_⟩)
        rw [inputAccesses_eq (asserted_input ha hport)]
        exact List.mem_cons_of_mem _ (List.mem_map_of_mem (List.mem_range.mpr hlt))
      obtain ⟨offsets, heq, hin⟩ := h _ hmem
      obtain rfl := Option.some.inj (hoffsets.symm.trans heq)
      exact Nat.lt_irrefl _ hin
  · rintro ⟨hin, hout, hchannels⟩ a hmem
    rcases mem_accesses.mp hmem with ⟨port, h, hport, hacc⟩ | ⟨port, hlt, rfl⟩
    · have hlt := Nat.lt_of_lt_of_le (List.getElem?_eq_some_iff.mp hport).1 hin
      rw [inputAccesses_eq (asserted_input ha hport)] at hacc
      rcases List.mem_cons.mp hacc with rfl | hchannel
      · exact hlt
      · obtain ⟨channel, hc, rfl⟩ := List.mem_map.mp hchannel
        have hoffsets := List.getElem?_eq_getElem hlt
        have hle := hchannels (h, _) (mem_zip_iff.mpr ⟨port, hport, hoffsets⟩)
        exact ⟨_, hoffsets, Nat.lt_of_lt_of_le (List.mem_range.mp hc) hle⟩
    · exact Nat.lt_of_lt_of_le hlt hout

/-! ## What is copied -/

theorem flatMap_range_single {α : Type} (n i : Nat) (xs : Nat → List α) :
    ((List.range n).flatMap fun j => if j = i then xs j else []) = if i < n then xs i else [] := by
  induction n with
  | zero => rfl
  | succ n ih =>
    rw [List.range_succ, List.flatMap_append, ih, List.flatMap_singleton]
    by_cases heq : n = i
    · subst heq
      simp
    · have hlt : i < n + 1 ↔ i < n := by omega
      simp only [heq, hlt, if_false, List.append_nil]

theorem filterMap_inputAccesses {h : AudioBuffer} (hdata : h.hasData ∨ h.channel_count = 0)
    (port i : Nat) : (inputAccesses port h).filterMap (channelOf i) =
      if port = i then List.range h.channel_count.toNat else [] := by
  rw [inputAccesses_eq hdata, List.filterMap_cons, List.filterMap_map]
  split_ifs with heq
  · have hsome : channelOf i ∘ input_channel_ptr (portType 0 h) port = some := by
      funext channel
      exact if_pos heq
    rw [hsome]
    exact List.filterMap_some
  · have hnone : channelOf i ∘ input_channel_ptr (portType 0 h) port = fun _ => none := by
      funext channel
      exact if_neg heq
    rw [hnone]
    exact List.filterMap_none _

theorem copied_eq {process : ClapProcess} (ha : Asserted process) (port : Nat) :
    copied process port = List.range (hostChannels process port) := by
  have houtputs : ((List.range process.outputs.length).map num_output_channels).filterMap
      (channelOf port) = [] := by
    rw [List.filterMap_map]
    exact List.filterMap_none _
  have hinputs : ∀ i ∈ List.range process.audio_inputs.length,
      (inputAccesses i (process.audio_inputs.getD i default)).filterMap (channelOf port) =
        if i = port then
          List.range (process.audio_inputs.getD i default).channel_count.toNat
        else [] := by
    intro i hi
    have hdata := asserted_input ha (getD_of_lt (List.mem_range.mp hi))
    exact filterMap_inputAccesses hdata i port
  unfold copied accesses hostChannels
  rw [List.filterMap_append, houtputs, List.append_nil, List.filterMap_flatMap,
    List.flatMap_congr hinputs, flatMap_range_single _ _ fun i =>
      List.range (process.audio_inputs.getD i default).channel_count.toNat]
  split_ifs with hlt
  · rw [getD_of_lt hlt]
    rfl
  · rw [List.getElem?_eq_none (Nat.not_lt.mp hlt)]
    rfl

/-- The copies stay inside as long as the host has neither ports nor input channels beyond the
configuration. With fewer it is always fine. -/
theorem staysInside_iff {process : ClapProcess} (ha : Asserted process)
    (shared : AudioShmBufferConfig) : StaysInside process shared ↔ Fits process shared := by
  rw [← configured_iff ha]
  refine ⟨fun h => h.configured, fun h => ⟨h, ?_⟩⟩
  intro port offsets hoffsets
  have hle : hostChannels process port ≤ offsets.length := by
    unfold hostChannels
    cases hport : process.audio_inputs[port]? with
    | none => exact Nat.zero_le _
    | some b =>
      have hfits := (configured_iff ha shared).mp h
      exact hfits.channels (b, offsets) (mem_zip_iff.mpr ⟨port, hport, hoffsets⟩)
  rw [copied_eq ha, Nat.min_eq_left hle]

/-- The two are what `repopulate` needs. -/
theorem accepts_iff (process : ClapProcess) (shared : AudioShmBufferConfig) :
    Accepts process shared ↔ Asserted process ∧ StaysInside process shared := by
  constructor
  · rintro ⟨hin, hout, hasserted, hchannels⟩
    refine ⟨hasserted, (staysInside_iff hasserted shared).mpr ⟨hin, hout, ?_⟩⟩
    intro p hp
    rcases hasserted p.1 (List.mem_append_left _ (List.of_mem_zip hp).1) with hdata | hzero
    · exact hchannels p hp hdata
    · rw [hzero]
      exact Nat.zero_le _
  · rintro ⟨hasserted, hstays⟩
    obtain ⟨hin, hout, hchannels⟩ := (staysInside_iff hasserted shared).mp hstays
    exact ⟨hin, hout, hasserted, fun p hp _ => hchannels p hp⟩

/-- 64 samples of an input port, with the pointers to its 32-bit channels, and of a mono output. -/
def oneInput (pointers : List UInt64) : ClapProcess where
  steady_time := 4096
  frames_count := 64
  transport := some default
  audio_inputs := [⟨some pointers, none, UInt32.ofNat pointers.length, 0, 0⟩]
  audio_outputs := some [⟨some [65536], none, 1, 0, 0⟩]
  in_events := []
  out_events := []

def stereoInput : AudioShmBufferConfig := ⟨[], 768, [[0, 256]], [[512]]⟩

theorem asserted_oneInput (pointers : List UInt64) : Asserted (oneInput pointers) := by
  simp [Asserted, oneInput, ClapProcess.outputs, AudioBuffer.hasData]

theorem staysInside_oneInput : Asserted (oneInput [8192, 12288]) ∧
    StaysInside (oneInput [8192, 12288]) stereoInput := by
  have ha := asserted_oneInput [8192, 12288]
  refine ⟨ha, (staysInside_iff ha stereoInput).mpr ?_⟩
  constructor <;> simp [oneInput, stereoInput, ClapProcess.outputs]

/-- A third channel has no place in the shared buffer. -/
theorem third_channel_outside : ¬ ∀ (process : ClapProcess) (shared : AudioShmBufferConfig),
    Asserted process → StaysInside process shared := by
  intro h
  have hstays := h (oneInput [8192, 12288, 16384]) stereoInput (asserted_oneInput _)
  exact absurd (hstays.copies 0 [0, 256] rfl) (by decide)

end Process
end Clap
