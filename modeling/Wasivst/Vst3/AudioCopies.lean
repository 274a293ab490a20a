import Mathlib.Data.List.Nodup
import Wasivst.Lib.Regions
import Wasivst.Lib.SignedIndex
import Wasivst.Vst3.ProcessData

/-!
# The audio copies of a VST3 cycle

The copy loops of `YaProcessData::repopulate` and `YaProcessData::write_back_outputs` over the bytes
of the shared memory. A channel of the host is the bytes that its pointer shows. The counts of the
loops are those of the buses in the `YaProcessData` object.
-/

set_option autoImplicit false

namespace Vst3
open InPlace Regions

/-- By bus and channel. -/
abbrev Channels := List (List (List UInt8))

/-- Bus and channel. -/
abbrev ChannelIndex := Nat × Nat

def channelAt {α : Type} (xss : List (List α)) (k : ChannelIndex) : Option α :=
  (xss[k.1]?).bind fun xs => xs[k.2]?

def kSample64 : UInt32 := 1

/-- `sizeof` of the sample type. -/
def sampleSize (process_data : ProcessData) : Nat :=
  if process_data.symbolicSampleSize = kSample64 then 8 else 4

/-- What `std::copy_n` of `numSamples` samples moves; a negative count moves nothing. -/
def copyLength (process_data : ProcessData) : Nat :=
  process_data.numSamples.toInt32.toNatClampNeg * sampleSize process_data

/-- The number of passes of a loop up to `numChannels`. -/
def AudioBusBuffers.channels (b : AudioBusBuffers) : Nat := b.numChannels.toInt32.toNatClampNeg

/-- The passes of the two loops, in their order. -/
def channelIndices (bs : List AudioBusBuffers) (numBuses : Nat) : List ChannelIndex :=
  (List.range numBuses).flatMap fun bus =>
    (List.range (bs.getD bus default).channels).map fun channel => (bus, channel)

def copyInput (process_data : ProcessData) (shared : AudioShmBufferConfig) (inputs : Channels)
    (mem : List UInt8) (k : ChannelIndex) : Option (List UInt8) := do
  let samples ← channelAt inputs k
  let offset ← channelAt shared.input_offsets k
  store mem offset.toNat (samples.take (copyLength process_data))

/-- The shared memory after `repopulate`, which has set the buses of `d`. -/
def copyInputs (d : YaProcessData) (process_data : ProcessData) (shared : AudioShmBufferConfig)
    (inputs : Channels) (mem : List UInt8) : Option (List UInt8) :=
  (channelIndices d.inputs_ process_data.inputs.length).foldlM
    (copyInput process_data shared inputs) mem

/-- The first samples of a channel are overwritten. -/
def overwrite (samples channel : List UInt8) : List UInt8 :=
  samples ++ channel.drop samples.length

def copyOutput (process_data : ProcessData) (shared : AudioShmBufferConfig) (mem : List UInt8)
    (outputs : Channels) (k : ChannelIndex) : Option Channels := do
  let offset ← channelAt shared.output_offsets k
  let samples ← load mem offset.toNat (copyLength process_data)
  let _ ← channelAt outputs k
  return outputs.modify k.1 fun bus => bus.modify k.2 (overwrite samples)

/-- The host's channels after `write_back_outputs`. -/
def copyOutputs (d : YaProcessData) (process_data : ProcessData) (shared : AudioShmBufferConfig)
    (mem : List UInt8) (outputs : Channels) : Option Channels :=
  (channelIndices d.outputs_ process_data.outputs.length).foldlM
    (copyOutput process_data shared mem) outputs

/-! ## What is expected -/

/-- The regions of all channels are inside of the shared memory and lie apart. -/
structure RegionsFit (shared : AudioShmBufferConfig) (n : Nat) : Prop where
  room : ∀ o ∈ shared.input_offsets.flatten ++ shared.output_offsets.flatten,
    o.toNat + n ≤ shared.size.toNat
  apart : ((shared.input_offsets.flatten ++ shared.output_offsets.flatten).map
    UInt32.toNat).Pairwise (Apart n)

/-- The pointers of the buses show a buffer for each channel, with room for the samples. -/
structure ChannelsValid (bs : List AudioBusBuffers) (n : Nat) (chs : Channels) : Prop where
  channels : chs.map List.length = bs.map AudioBusBuffers.channels
  samples : ∀ k ch, channelAt chs k = some ch → n ≤ ch.length

/-- Each channel that both sides have is in its region, and no other byte has changed. -/
structure InputsCopied (shared : AudioShmBufferConfig) (n : Nat) (inputs : Channels)
    (mem mem' : List UInt8) : Prop where
  length : mem'.length = mem.length
  regions : ∀ k ch o, channelAt inputs k = some ch → channelAt shared.input_offsets k = some o →
    load mem' o.toNat n = some (ch.take n)
  outside : ∀ i, (∀ k ch o, channelAt inputs k = some ch →
    channelAt shared.input_offsets k = some o → ¬ Inside n o.toNat i) → mem'[i]? = mem[i]?

/-- Each channel that both sides have starts with the samples of its region, and no other channel
has changed. -/
structure OutputsCopied (shared : AudioShmBufferConfig) (n : Nat) (mem : List UInt8)
    (outputs outputs' : Channels) : Prop where
  copied : ∀ k ch o, channelAt outputs k = some ch → channelAt shared.output_offsets k = some o →
    ∃ samples, load mem o.toNat n = some samples ∧
      channelAt outputs' k = some (overwrite samples ch)
  others : ∀ k, channelAt outputs k = none ∨ channelAt shared.output_offsets k = none →
    channelAt outputs' k = channelAt outputs k

/-! ## The counts of the loops -/

theorem toNatClampNeg_minInt32 (a b : UInt32) : (minInt32 a b).toInt32.toNatClampNeg =
    min a.toInt32.toNatClampNeg b.toInt32.toNatClampNeg := by
  unfold minInt32
  split_ifs with h
  · exact (Nat.min_eq_right (Int32.toNatClampNeg_le (Int32.le_of_lt h))).symm
  · exact (Nat.min_eq_left (Int32.toNatClampNeg_le (Int32.not_lt.mp h))).symm

theorem busMetadata_getElem? (olds : List AudioBusBuffers) (offsets : List (List UInt32))
    {host : List AudioBusBuffers} {bus : Nat} {b : AudioBusBuffers} (hb : host[bus]? = some b) :
    ∃ c, (busMetadata olds offsets host)[bus]? = some c ∧
      c.channels =
        min (Int32.ofNat (offsets.getD bus []).length).toNatClampNeg b.channels := by
  unfold busMetadata
  rw [List.getElem?_mapIdx, hb]
  exact ⟨_, rfl, toNatClampNeg_minInt32 _ _⟩

theorem mem_channelIndices (bs : List AudioBusBuffers) (k : ChannelIndex) :
    k ∈ channelIndices bs bs.length ↔ ∃ b, bs[k.1]? = some b ∧ k.2 < b.channels := by
  simp only [channelIndices, List.mem_flatMap, List.mem_map, List.mem_range]
  constructor
  · rintro ⟨bus, hbus, channel, hchannel, rfl⟩
    refine ⟨bs.getD bus default, ?_, hchannel⟩
    simp [hbus]
  · rintro ⟨b, hb, hchannel⟩
    refine ⟨k.1, (List.getElem?_eq_some_iff.mp hb).1, k.2, ?_, rfl⟩
    simpa [hb] using hchannel

theorem channelIndices_congr {bs bs' : List AudioBusBuffers}
    (h : bs.map (·.numChannels) = bs'.map (·.numChannels)) (n : Nat) :
    channelIndices bs n = channelIndices bs' n := by
  have hbus : ∀ bus, (bs.getD bus default).channels = (bs'.getD bus default).channels := by
    intro bus
    have hat := congrArg (fun l => l[bus]?) h
    simp only [List.getElem?_map] at hat
    rw [List.getD_eq_getElem?_getD, List.getD_eq_getElem?_getD]
    cases hb : bs[bus]? with
    | none =>
      rw [hb, Option.map_none, eq_comm, Option.map_eq_none_iff] at hat
      rw [hat]
    | some b =>
      rw [hb, Option.map_some, eq_comm, Option.map_eq_some_iff] at hat
      obtain ⟨b', hb', hcount⟩ := hat
      simp only [hb', Option.getD_some, AudioBusBuffers.channels, hcount]
  simp only [channelIndices, hbus]

theorem nodup_channelIndices (bs : List AudioBusBuffers) (n : Nat) :
    (channelIndices bs n).Nodup := by
  unfold channelIndices
  rw [List.nodup_flatMap]
  constructor
  · intro bus _
    exact List.nodup_range.map fun _ _ h => (Prod.mk.inj h).2
  · apply List.pairwise_lt_range.imp
    intro a b hab k ha hb
    obtain ⟨_, _, rfl⟩ := List.mem_map.mp ha
    obtain ⟨_, _, heq⟩ := List.mem_map.mp hb
    exact Nat.ne_of_gt hab (Prod.mk.inj heq).1

theorem channelAt_eq_some {α : Type} {xss : List (List α)} {k : ChannelIndex} {x : α} :
    channelAt xss k = some x ↔ ∃ xs, xss[k.1]? = some xs ∧ xs[k.2]? = some x :=
  Option.bind_eq_some_iff

section Counts
variable {olds host : List AudioBusBuffers} {offsets : List (List UInt32)} {n : Nat}
variable {chs : Channels}

theorem ChannelsValid.bus (h : ChannelsValid host n chs) {bus : Nat} {b : AudioBusBuffers}
    (hb : host[bus]? = some b) : ∃ c, chs[bus]? = some c ∧ c.length = b.channels := by
  have hlength := congrArg (fun l => l[bus]?) h.channels
  simp only [List.getElem?_map, hb, Option.map_some, Option.map_eq_some_iff] at hlength
  exact hlength

theorem mem_copied_iff (hlen : host.length ≤ offsets.length) (h : ChannelsValid host n chs)
    (k : ChannelIndex) :
    k ∈ channelIndices (busMetadata olds offsets host) host.length ↔
      ∃ c os, chs[k.1]? = some c ∧ offsets[k.1]? = some os ∧
        k.2 < min (Int32.ofNat os.length).toNatClampNeg c.length := by
  have hmem := mem_channelIndices (busMetadata olds offsets host) k
  rw [busMetadata_length] at hmem
  rw [hmem]
  constructor
  · rintro ⟨b', hb', hlt⟩
    have hbus : k.1 < host.length := by
      simpa using (List.getElem?_eq_some_iff.mp hb').1
    obtain ⟨b, hb⟩ : ∃ b, host[k.1]? = some b := ⟨_, List.getElem?_eq_getElem hbus⟩
    obtain ⟨c, hc, hcount⟩ := h.bus hb
    obtain ⟨b'', hb'', hmin⟩ := busMetadata_getElem? olds offsets hb
    obtain rfl := Option.some.inj (hb'.symm.trans hb'')
    have hos := List.getElem?_eq_getElem (Nat.lt_of_lt_of_le hbus hlen)
    rw [List.getD_eq_getElem?_getD, hos, Option.getD_some] at hmin
    exact ⟨c, _, hc, hos, by rwa [hcount, ← hmin]⟩
  · rintro ⟨c, os, hc, hos, hlt⟩
    have hbus : k.1 < host.length := by
      have hlength := congrArg List.length h.channels
      have hin := (List.getElem?_eq_some_iff.mp hc).1
      rw [List.length_map, List.length_map] at hlength
      omega
    obtain ⟨b, hb⟩ : ∃ b, host[k.1]? = some b := ⟨_, List.getElem?_eq_getElem hbus⟩
    obtain ⟨c', hc', hcount⟩ := h.bus hb
    obtain rfl := Option.some.inj (hc.symm.trans hc')
    obtain ⟨b', hb', hmin⟩ := busMetadata_getElem? olds offsets hb
    rw [List.getD_eq_getElem?_getD, hos, Option.getD_some] at hmin
    exact ⟨b', hb', by rwa [hmin, ← hcount]⟩

/-- The loops do not leave what both sides have. -/
theorem both_of_mem (hlen : host.length ≤ offsets.length) (h : ChannelsValid host n chs)
    {k : ChannelIndex} (hk : k ∈ channelIndices (busMetadata olds offsets host) host.length) :
    ∃ ch o, channelAt chs k = some ch ∧ channelAt offsets k = some o := by
  obtain ⟨c, os, hc, hos, hlt⟩ := (mem_copied_iff hlen h k).mp hk
  have hle := SignedIndex.toNatClampNeg_ofNat_le os.length
  have hch := List.getElem?_eq_getElem (l := c) (i := k.2) (by omega)
  have ho := List.getElem?_eq_getElem (l := os) (i := k.2) (by omega)
  exact ⟨_, _, channelAt_eq_some.mpr ⟨c, hc, hch⟩, channelAt_eq_some.mpr ⟨os, hos, ho⟩⟩

/-- They come by every channel that both sides have, if the count of the channels is an `int32`. -/
theorem mem_of_both (hlen : host.length ≤ offsets.length) (h : ChannelsValid host n chs)
    (hint : ∀ os ∈ offsets, os.length < 2 ^ 31) {k : ChannelIndex} {ch : List UInt8} {o : UInt32}
    (hch : channelAt chs k = some ch) (ho : channelAt offsets k = some o) :
    k ∈ channelIndices (busMetadata olds offsets host) host.length := by
  obtain ⟨c, hc, hch⟩ := channelAt_eq_some.mp hch
  obtain ⟨os, hos, ho⟩ := channelAt_eq_some.mp ho
  refine (mem_copied_iff hlen h k).mpr ⟨c, os, hc, hos, ?_⟩
  have hlt := (List.getElem?_eq_some_iff.mp hch).1
  have hlt' := (List.getElem?_eq_some_iff.mp ho).1
  rw [Int32.toNatClampNeg_ofNat_of_lt (hint os (List.mem_of_getElem? hos))]
  omega

end Counts

/-! ## The regions -/

theorem rel_of_lt {α : Type} {R : α → α → Prop} {l : List α} (h : l.Pairwise R) {i j : Nat}
    (hij : i < j) {a b : α} (ha : l[i]? = some a) (hb : l[j]? = some b) : R a b := by
  obtain ⟨hi, rfl⟩ := List.getElem?_eq_some_iff.mp ha
  obtain ⟨hj, rfl⟩ := List.getElem?_eq_some_iff.mp hb
  exact List.pairwise_iff_getElem.mp h i j hi hj hij

theorem rel_of_ne {α : Type} {R : α → α → Prop} (hsymm : ∀ a b, R a b → R b a)
    {xss : List (List α)} (h : xss.flatten.Pairwise R) {j k : ChannelIndex} (hjk : j ≠ k) {a b : α}
    (ha : channelAt xss j = some a) (hb : channelAt xss k = some b) : R a b := by
  obtain ⟨xs, hxs, ha⟩ := channelAt_eq_some.mp ha
  obtain ⟨ys, hys, hb⟩ := channelAt_eq_some.mp hb
  obtain ⟨hin, hbetween⟩ := List.pairwise_flatten.mp h
  rcases Nat.lt_trichotomy j.1 k.1 with hlt | heq | hgt
  · exact rel_of_lt hbetween hlt hxs hys a (List.mem_of_getElem? ha) b (List.mem_of_getElem? hb)
  · rw [heq] at hxs
    obtain rfl := Option.some.inj (hxs.symm.trans hys)
    have hbus := hin xs (List.mem_of_getElem? hys)
    rcases Nat.lt_trichotomy j.2 k.2 with hlt | heq' | hgt
    · exact rel_of_lt hbus hlt ha hb
    · exact absurd (Prod.ext heq heq') hjk
    · exact hsymm _ _ (rel_of_lt hbus hgt hb ha)
  · exact hsymm _ _
      (rel_of_lt hbetween hgt hys hxs b (List.mem_of_getElem? hb) a (List.mem_of_getElem? ha))

theorem mem_flatten_of_channelAt {α : Type} {xss : List (List α)} {k : ChannelIndex} {x : α}
    (h : channelAt xss k = some x) : x ∈ xss.flatten := by
  obtain ⟨xs, hxs, hx⟩ := channelAt_eq_some.mp h
  exact List.mem_flatten.mpr ⟨xs, List.mem_of_getElem? hxs, List.mem_of_getElem? hx⟩

namespace RegionsFit
variable {shared : AudioShmBufferConfig} {n : Nat} (h : RegionsFit shared n)
include h

theorem inputs_apart {j k : ChannelIndex} (hjk : j ≠ k) {o p : UInt32}
    (ho : channelAt shared.input_offsets j = some o)
    (hp : channelAt shared.input_offsets k = some p) : Apart n o.toNat p.toNat := by
  have happend := List.pairwise_append.mp (List.pairwise_map.mp h.apart)
  exact rel_of_ne (fun _ _ => Apart.symm) happend.1 hjk ho hp

theorem input_room {k : ChannelIndex} {o : UInt32}
    (ho : channelAt shared.input_offsets k = some o) : o.toNat + n ≤ shared.size.toNat :=
  h.room o (List.mem_append_left _ (mem_flatten_of_channelAt ho))

theorem output_room {k : ChannelIndex} {o : UInt32}
    (ho : channelAt shared.output_offsets k = some o) : o.toNat + n ≤ shared.size.toNat :=
  h.room o (List.mem_append_right _ (mem_flatten_of_channelAt ho))

/-- So many channels with samples do not fit into the shared memory that an `int32` could not
count them. -/
theorem length_lt (hn : 4 ≤ n) {os : List UInt32}
    (hos : os ∈ shared.input_offsets ++ shared.output_offsets) : os.length < 2 ^ 31 := by
  have hsub : os.Sublist (shared.input_offsets.flatten ++ shared.output_offsets.flatten) := by
    rw [← List.flatten_append]
    exact List.sublist_flatten_of_mem hos
  have hroom : ∀ o ∈ os.map UInt32.toNat, o + n ≤ shared.size.toNat := by
    intro o ho
    obtain ⟨x, hx, rfl⟩ := List.mem_map.mp ho
    exact h.room x (hsub.subset hx)
  have hapart : (os.map UInt32.toNat).Pairwise (Apart n) := h.apart.sublist (hsub.map _)
  have hle := length_mul_le (by omega) hroom hapart
  have hsize := shared.size.toNat_lt
  rw [List.length_map] at hle
  have hfour := Nat.mul_le_mul_left os.length hn
  omega

end RegionsFit

/-- For a count that is an `int32`, the bytes of that many samples. -/
theorem copyLength_eq {host : ProcessData} (h : host.numSamples.toNat < 2 ^ 31) :
    copyLength host = host.numSamples.toNat * sampleSize host := by
  have hcast : host.numSamples.toInt32 = Int32.ofNat host.numSamples.toNat := by
    rw [← UInt32.toInt32_ofNat', UInt32.ofNat_toNat]
  rw [copyLength, hcast, Int32.toNatClampNeg_ofNat_of_lt h]

theorem copyLength_cases (host : ProcessData) : copyLength host = 0 ∨ 4 ≤ copyLength host := by
  unfold copyLength sampleSize
  split_ifs <;> omega

/-! ## The copies -/

theorem channelAt_modify {α : Type} (xss : List (List α)) (j k : ChannelIndex) (f : α → α) :
    channelAt (xss.modify k.1 fun xs => xs.modify k.2 f) j =
      if j = k then (channelAt xss j).map f else channelAt xss j := by
  obtain ⟨j₁, j₂⟩ := j
  obtain ⟨k₁, k₂⟩ := k
  simp only [channelAt, List.getElem?_modify, Prod.mk.injEq]
  by_cases h₁ : k₁ = j₁
  · subst h₁
    cases xss[k₁]? with
    | none => simp
    | some xs =>
      by_cases h₂ : k₂ = j₂
      · simp [h₂]
      · simp [h₂, Ne.symm h₂]
  · simp [h₁, Ne.symm h₁]

theorem foldlM_copyOutput {host : ProcessData} {shared : AudioShmBufferConfig} {mem : List UInt8}
    {ks : List ChannelIndex} (hnodup : ks.Nodup) {outputs : Channels}
    (hks : ∀ k ∈ ks, ∃ ch o, channelAt outputs k = some ch ∧
      channelAt shared.output_offsets k = some o ∧
      o.toNat + copyLength host ≤ mem.length) :
    ∃ outputs', ks.foldlM (copyOutput host shared mem) outputs = some outputs' ∧
      (∀ k ∈ ks, ∀ ch o, channelAt outputs k = some ch →
        channelAt shared.output_offsets k = some o →
        ∃ samples, load mem o.toNat (copyLength host) = some samples ∧
          channelAt outputs' k = some (overwrite samples ch)) ∧
      ∀ k, k ∉ ks → channelAt outputs' k = channelAt outputs k := by
  induction ks generalizing outputs with
  | nil => exact ⟨outputs, rfl, fun _ h => absurd h List.not_mem_nil, fun _ _ => rfl⟩
  | cons k ks ih =>
    obtain ⟨hk, hnodup⟩ := List.nodup_cons.mp hnodup
    obtain ⟨ch, o, hch, ho, hroom⟩ := hks k List.mem_cons_self
    obtain ⟨samples, hload⟩ : ∃ samples, load mem o.toNat (copyLength host) = some samples :=
      ⟨_, if_pos hroom⟩
    set outputs₁ := outputs.modify k.1 fun bus => bus.modify k.2 (overwrite samples) with houtputs₁
    have hstep : copyOutput host shared mem outputs k = some outputs₁ := by
      simp [copyOutput, ho, hload, hch, houtputs₁]
    have hsame : ∀ j, j ≠ k → channelAt outputs₁ j = channelAt outputs j := by
      intro j hj
      rw [houtputs₁, channelAt_modify, if_neg hj]
    have hks₁ : ∀ j ∈ ks, ∃ ch o, channelAt outputs₁ j = some ch ∧
        channelAt shared.output_offsets j = some o ∧
        o.toNat + copyLength host ≤ mem.length := by
      intro j hj
      rw [hsame j fun h => hk (h ▸ hj)]
      exact hks j (List.mem_cons_of_mem k hj)
    obtain ⟨outputs', hfold, hcopied, hothers⟩ := ih hnodup hks₁
    refine ⟨outputs', by rw [List.foldlM_cons, hstep]; exact hfold, ?_, ?_⟩
    · intro j hj ch' o' hch' ho'
      by_cases hjk : j = k
      · subst hjk
        obtain rfl := Option.some.inj (hch.symm.trans hch')
        obtain rfl := Option.some.inj (ho.symm.trans ho')
        refine ⟨samples, hload, ?_⟩
        rw [hothers j hk, houtputs₁, channelAt_modify, if_pos rfl, hch, Option.map_some]
      · have hmem := (List.mem_cons.mp hj).resolve_left hjk
        exact hcopied j hmem ch' o' ((hsame j hjk).trans hch') ho'
    · intro j hj
      rw [List.mem_cons, not_or] at hj
      rw [hothers j hj.2, hsame j hj.1]

section Copies
variable {host : ProcessData} {shared : AudioShmBufferConfig} {mem : List UInt8}
variable {d : YaProcessData} {olds : List AudioBusBuffers}
variable (hfit : RegionsFit shared (copyLength host)) (hmem : mem.length = shared.size.toNat)
include hfit hmem

theorem copyInputs_copied {inputs : Channels}
    (hbuses : host.inputs.length ≤ shared.input_offsets.length)
    (hd : d.inputs_ = busMetadata olds shared.input_offsets host.inputs)
    (hvalid : ChannelsValid host.inputs (copyLength host) inputs) :
    ∃ mem', copyInputs d host shared inputs mem = some mem' ∧
      InputsCopied shared (copyLength host) inputs mem mem' := by
  set n := copyLength host with hn
  set ks := channelIndices d.inputs_ host.inputs.length with hks
  let offset := fun k => ((channelAt shared.input_offsets k).getD 0).toNat
  let data := fun k => ((channelAt inputs k).getD []).take n
  have hboth : ∀ k ∈ ks, ∃ ch o, channelAt inputs k = some ch ∧
      channelAt shared.input_offsets k = some o := by
    intro k hk
    rw [hks, hd] at hk
    exact both_of_mem hbuses hvalid hk
  have hstep : ∀ m, ∀ k ∈ ks, copyInput host shared inputs m k = store m (offset k) (data k) := by
    intro m k hk
    obtain ⟨ch, o, hch, ho⟩ := hboth k hk
    simp [copyInput, offset, data, hch, ho, hn]
  have hdata : ∀ k ∈ ks, (data k).length = n := by
    intro k hk
    obtain ⟨ch, o, hch, ho⟩ := hboth k hk
    have hlen := hvalid.samples k ch hch
    simp [data, hch, hlen]
  have hroom : ∀ k ∈ ks, offset k + n ≤ mem.length := by
    intro k hk
    obtain ⟨ch, o, hch, ho⟩ := hboth k hk
    have hroom := hfit.input_room ho
    simpa [offset, ho, hmem] using hroom
  have hapart : ks.Pairwise fun j k => Apart n (offset j) (offset k) := by
    refine (nodup_channelIndices d.inputs_ host.inputs.length).imp_of_mem ?_
    intro j k hj hk hjk
    obtain ⟨_, o, _, ho⟩ := hboth j hj
    obtain ⟨_, p, _, hp⟩ := hboth k hk
    have hap := hfit.inputs_apart hjk ho hp
    simpa [offset, ho, hp] using hap
  obtain ⟨mem', hmem', hlen, hregions, houtside⟩ := storeAll_stored hdata hroom hapart
  refine ⟨mem', (foldlM_eq_storeAll hstep mem).trans hmem', hlen, ?_, ?_⟩
  · intro k ch o hch ho
    rcases copyLength_cases host with hzero | hfour
    · have hroom := hfit.input_room ho
      have hempty : load mem' o.toNat 0 = some [] := if_pos (by omega)
      rw [← hn] at hzero
      rw [hzero, hempty, List.take_zero]
    · have hint : ∀ os ∈ shared.input_offsets, os.length < 2 ^ 31 :=
        fun os hos => hfit.length_lt hfour (List.mem_append_left _ hos)
      have hk : k ∈ ks := by
        rw [hks, hd]
        exact mem_of_both hbuses hvalid hint hch ho
      have hregion := hregions k hk
      simpa [offset, data, hch, ho] using hregion
  · intro i hi
    apply houtside
    intro k hk
    obtain ⟨ch, o, hch, ho⟩ := hboth k hk
    have hin := hi k ch o hch ho
    simpa [offset, ho] using hin

theorem copyOutputs_copied {outputs : Channels}
    (hbuses : host.outputs.length ≤ shared.output_offsets.length)
    (hd : d.outputs_.map (·.numChannels) =
      (busMetadata olds shared.output_offsets host.outputs).map (·.numChannels))
    (hvalid : ChannelsValid host.outputs (copyLength host) outputs) :
    ∃ outputs', copyOutputs d host shared mem outputs = some outputs' ∧
      OutputsCopied shared (copyLength host) mem outputs outputs' := by
  set ks := channelIndices (busMetadata olds shared.output_offsets host.outputs)
    host.outputs.length with hks
  have hboth : ∀ k ∈ ks, ∃ ch o, channelAt outputs k = some ch ∧
      channelAt shared.output_offsets k = some o ∧ o.toNat + copyLength host ≤ mem.length := by
    intro k hk
    obtain ⟨ch, o, hch, ho⟩ := both_of_mem hbuses hvalid hk
    exact ⟨ch, o, hch, ho, hmem ▸ hfit.output_room ho⟩
  have hnodup : ks.Nodup := nodup_channelIndices _ _
  obtain ⟨outputs', hfold, hcopied, hothers⟩ := foldlM_copyOutput hnodup hboth
  refine ⟨outputs', ?_, ?_, ?_⟩
  · unfold copyOutputs
    rw [channelIndices_congr hd]
    exact hfold
  · intro k ch o hch ho
    by_cases hk : k ∈ ks
    · exact hcopied k hk ch o hch ho
    · have hzero : copyLength host = 0 := by
        apply (copyLength_cases host).resolve_right
        intro hfour
        have hint : ∀ os ∈ shared.output_offsets, os.length < 2 ^ 31 :=
          fun os hos => hfit.length_lt hfour (List.mem_append_right _ hos)
        exact hk (mem_of_both hbuses hvalid hint hch ho)
      have hroom := hfit.output_room ho
      have hempty : load mem o.toNat 0 = some [] := if_pos (by omega)
      refine ⟨[], by rw [hzero, hempty], ?_⟩
      rw [hothers k hk, hch]
      rfl
  · intro k hnone
    apply hothers
    intro hk
    obtain ⟨ch, o, hch, ho, _⟩ := hboth k hk
    rcases hnone with hnone | hnone
    · rw [hch] at hnone
      cases hnone
    · rw [ho] at hnone
      cases hnone

end Copies

/-- A cycle's audio: what `repopulate` does to the shared memory, and what `write_back_outputs`
does with any shared memory of that size afterwards. The response has to leave the counts of the
channels what they were. -/
theorem audio_copied (d : YaProcessData) {host : ProcessData} {shared : AudioShmBufferConfig}
    {inputs outputs : Channels} (hin : host.inputs.length ≤ shared.input_offsets.length)
    (hout : host.outputs.length ≤ shared.output_offsets.length)
    (hfit : RegionsFit shared (copyLength host))
    (hinputs : ChannelsValid host.inputs (copyLength host) inputs)
    (houtputs : ChannelsValid host.outputs (copyLength host) outputs) :
    ∃ native, d.repopulate host shared = some native ∧
      (∀ mem, mem.length = shared.size.toNat →
        ∃ mem', copyInputs native host shared inputs mem = some mem' ∧
          InputsCopied shared (copyLength host) inputs mem mem') ∧
      ∀ (responded : YaProcessData) mem,
        responded.outputs_.map (·.numChannels) = native.outputs_.map (·.numChannels) →
        mem.length = shared.size.toNat →
        ∃ outputs', copyOutputs responded host shared mem outputs = some outputs' ∧
          OutputsCopied shared (copyLength host) mem outputs outputs' := by
  refine ⟨_, YaProcessData.repopulate_eq_some.mpr ⟨⟨hin, hout⟩, rfl⟩, ?_, ?_⟩
  · intro mem hmem
    exact copyInputs_copied hfit hmem hin rfl hinputs
  · intro responded mem hcounts hmem
    exact copyOutputs_copied hfit hmem hout hcounts houtputs

/-- Two samples of a stereo input, and shared buffers with one channel for it. -/
def stereoHost (symbolicSampleSize : UInt32) : ProcessData :=
  ⟨0, symbolicSampleSize, 2, [⟨2, 0, 0⟩], [⟨1, 0, 0⟩], none, none, none, none, none⟩

def monoShared : AudioShmBufferConfig := ⟨[], 32, [[0]], [[16]]⟩

/-- Room for two samples of either size. -/
def leftChannel : List UInt8 := [1, 2, 3, 4, 5, 6, 7, 8, 9, 10, 11, 12, 13, 14, 15, 16]

def stereoChannels : Channels := [[leftChannel, List.replicate 16 17]]

def monoChannels : Channels := [[List.replicate 16 0]]

theorem regionsFit_monoShared {n : Nat} (hn : n ≤ 16) : RegionsFit monoShared n := by
  constructor
  · have hroom : 16 + n ≤ 32 := Nat.add_le_add_left hn 16
    have hfirst : n ≤ 32 := by omega
    simp [monoShared, hroom, hfirst]
  · simpa [monoShared, Apart] using hn

theorem channelsValid_of_le {bs : List AudioBusBuffers} {n : Nat} {chs : Channels}
    (hlen : chs.map List.length = bs.map AudioBusBuffers.channels)
    (hroom : ∀ ch ∈ chs.flatten, n ≤ ch.length) : ChannelsValid bs n chs :=
  ⟨hlen, fun _ ch hch => hroom ch (mem_flatten_of_channelAt hch)⟩

theorem audio_copied_mono :
    (∃ native mem', YaProcessData.fresh.repopulate (stereoHost 0) monoShared = some native ∧
      copyInputs native (stereoHost 0) monoShared stereoChannels (List.replicate 32 0) =
        some mem' ∧ load mem' 0 8 = some [1, 2, 3, 4, 5, 6, 7, 8]) ∧
    ∃ native mem', YaProcessData.fresh.repopulate (stereoHost kSample64) monoShared =
        some native ∧
      copyInputs native (stereoHost kSample64) monoShared stereoChannels (List.replicate 32 0) =
        some mem' ∧ load mem' 0 16 = some leftChannel := by
  have hcopied : ∀ size n, copyLength (stereoHost size) = n → n ≤ 16 → ∃ native mem',
      YaProcessData.fresh.repopulate (stereoHost size) monoShared = some native ∧
      copyInputs native (stereoHost size) monoShared stereoChannels (List.replicate 32 0) =
        some mem' ∧ load mem' 0 n = some (leftChannel.take n) := by
    rintro size _ rfl hn
    have hin : ChannelsValid (stereoHost size).inputs (copyLength (stereoHost size))
        stereoChannels := by
      apply channelsValid_of_le rfl
      simp [stereoChannels, leftChannel, hn]
    have hout : ChannelsValid (stereoHost size).outputs (copyLength (stereoHost size))
        monoChannels := by
      apply channelsValid_of_le rfl
      simp [monoChannels, hn]
    have hins : (stereoHost size).inputs.length ≤ monoShared.input_offsets.length := Nat.le_refl 1
    have houts : (stereoHost size).outputs.length ≤ monoShared.output_offsets.length :=
      Nat.le_refl 1
    obtain ⟨native, hnative, hinputs, _⟩ :=
      audio_copied .fresh hins houts (regionsFit_monoShared hn) hin hout
    obtain ⟨mem', hmem', hregions⟩ := hinputs (List.replicate 32 0) rfl
    exact ⟨native, mem', hnative, hmem', hregions.regions (0, 0) _ _ rfl rfl⟩
  have h32 : copyLength (stereoHost 0) = 8 := copyLength_eq (by decide)
  have h64 : copyLength (stereoHost kSample64) = 16 := copyLength_eq (by decide)
  exact ⟨hcopied 0 8 h32 (by decide), hcopied kSample64 16 h64 (by decide)⟩

end Vst3
