import Wasivst.AudioShm
import Wasivst.Vst3.EventList
import Wasivst.Vst3.ParameterChanges

/-!
# VST3 process data

`YaProcessData` of `serialization/vst3/process-data.{h,cpp}`: the same two objects carry every
processing cycle of a plugin instance, and the response is decoded into the request's own
fields. The audio itself is not part of these objects.
-/

set_option autoImplicit false

namespace Vst3
open InPlace

/-- `channelBuffers` is the union of the two pointers. -/
structure AudioBusBuffers where
  numChannels : UInt32
  silenceFlags : UInt64
  channelBuffers : UInt64
  deriving DecidableEq, Inhabited

structure Chord where
  keyNote : UInt8
  rootNote : UInt8
  chordMask : UInt16
  deriving DecidableEq, Inhabited

structure FrameRate where
  framesPerSecond : UInt32
  flags : UInt32
  deriving DecidableEq, Inhabited

structure ProcessContext where
  state : UInt32
  sampleRate : UInt64
  projectTimeSamples : UInt64
  systemTime : UInt64
  continousTimeSamples : UInt64
  projectTimeMusic : UInt64
  barPositionMusic : UInt64
  cycleStartMusic : UInt64
  cycleEndMusic : UInt64
  tempo : UInt64
  timeSigNumerator : UInt32
  timeSigDenominator : UInt32
  chord : Chord
  smpteOffsetSubframes : UInt32
  frameRate : FrameRate
  samplesToNextClock : UInt32
  deriving DecidableEq, Inhabited

/-- A null pointer is `none`; an interface is what it holds. -/
structure ProcessData where
  processMode : UInt32
  symbolicSampleSize : UInt32
  numSamples : UInt32
  inputs : List AudioBusBuffers
  outputs : List AudioBusBuffers
  inputParameterChanges : Option (List ParamValueQueue)
  outputParameterChanges : Option (List ParamValueQueue)
  inputEvents : Option (List Event)
  outputEvents : Option (List Event)
  processContext : Option ProcessContext
  deriving DecidableEq

structure YaProcessData where
  process_mode_ : UInt32
  symbolic_sample_size_ : UInt32
  num_samples_ : UInt32
  inputs_ : List AudioBusBuffers
  outputs_ : List AudioBusBuffers
  input_parameter_changes_ : YaParameterChanges
  output_parameter_changes_ : Option YaParameterChanges
  input_events_ : Option YaEventList
  output_events_ : Option YaEventList
  process_context_ : Option ProcessContext

/-! ## Serialization -/

section Serialize
variable (B : Bitsery)

def max_num_speakers : Nat := 16384

/-- The audio pointers are not touched. -/
def AudioBusBuffers.serialize : Codec AudioBusBuffers :=
  .record
    [.field (·.numChannels) (fun b v => { b with numChannels := v }) B.value4b,
     .field (·.silenceFlags) (fun b v => { b with silenceFlags := v }) B.value8b]

@[simp] theorem AudioBusBuffers.serialize_put (old b : AudioBusBuffers) :
    (serialize B).put old b = { b with channelBuffers := old.channelBuffers } := rfl

@[simp] theorem AudioBusBuffers.serialize_fits (b : AudioBusBuffers) :
    (serialize B).fits b = true := by
  simp [serialize]

def buses : Codec (List AudioBusBuffers) :=
  B.container max_num_speakers default (AudioBusBuffers.serialize B)

theorem buses_fits (bs : List AudioBusBuffers) :
    (buses B).fits bs ↔ bs.length ≤ max_num_speakers := by
  have hmax : max_num_speakers < 2 ^ 30 := by decide
  simp [buses, B.container_fits _ _ hmax]

@[simp] theorem buses_put_length (olds bs : List AudioBusBuffers) :
    ((buses B).put olds bs).length = bs.length := Codec.putList_length _ _ olds bs

/-- A field of the buses other than the pointer is that of the buses sent. -/
theorem map_buses_put {α : Type} {f : AudioBusBuffers → α}
    (h : ∀ b p, f { b with channelBuffers := p } = f b) (olds bs : List AudioBusBuffers) :
    ((buses B).put olds bs).map f = bs.map f :=
  Codec.map_putList _ _ (fun old b => h b old.channelBuffers) olds bs

def Chord.serialize : Codec Chord :=
  .record
    [.field (·.keyNote) (fun c v => { c with keyNote := v }) B.value1b,
     .field (·.rootNote) (fun c v => { c with rootNote := v }) B.value1b,
     .field (·.chordMask) (fun c v => { c with chordMask := v }) B.value2b]

@[simp] theorem Chord.serialize_put (old c : Chord) : (serialize B).put old c = c := rfl

@[simp] theorem Chord.serialize_fits (c : Chord) : (serialize B).fits c = true := by
  simp [serialize]

def FrameRate.serialize : Codec FrameRate :=
  .record
    [.field (·.framesPerSecond) (fun f v => { f with framesPerSecond := v }) B.value4b,
     .field (·.flags) (fun f v => { f with flags := v }) B.value4b]

@[simp] theorem FrameRate.serialize_put (old f : FrameRate) : (serialize B).put old f = f := rfl

@[simp] theorem FrameRate.serialize_fits (f : FrameRate) : (serialize B).fits f = true := by
  simp [serialize]

/-- `smpteOffsetSubframes` is sent twice. -/
def ProcessContext.serialize : Codec ProcessContext :=
  .record
    [.field (·.state) (fun c v => { c with state := v }) B.value4b,
     .field (·.sampleRate) (fun c v => { c with sampleRate := v }) B.value8b,
     .field (·.projectTimeSamples) (fun c v => { c with projectTimeSamples := v }) B.value8b,
     .field (·.systemTime) (fun c v => { c with systemTime := v }) B.value8b,
     .field (·.continousTimeSamples) (fun c v => { c with continousTimeSamples := v }) B.value8b,
     .field (·.projectTimeMusic) (fun c v => { c with projectTimeMusic := v }) B.value8b,
     .field (·.barPositionMusic) (fun c v => { c with barPositionMusic := v }) B.value8b,
     .field (·.cycleStartMusic) (fun c v => { c with cycleStartMusic := v }) B.value8b,
     .field (·.cycleEndMusic) (fun c v => { c with cycleEndMusic := v }) B.value8b,
     .field (·.tempo) (fun c v => { c with tempo := v }) B.value8b,
     .field (·.timeSigNumerator) (fun c v => { c with timeSigNumerator := v }) B.value4b,
     .field (·.timeSigDenominator) (fun c v => { c with timeSigDenominator := v }) B.value4b,
     .field (·.chord) (fun c v => { c with chord := v }) (Chord.serialize B),
     .field (·.smpteOffsetSubframes) (fun c v => { c with smpteOffsetSubframes := v }) B.value4b,
     .field (·.smpteOffsetSubframes) (fun c v => { c with smpteOffsetSubframes := v }) B.value4b,
     .field (·.frameRate) (fun c v => { c with frameRate := v }) (FrameRate.serialize B),
     .field (·.samplesToNextClock) (fun c v => { c with samplesToNextClock := v }) B.value4b]

@[simp] theorem ProcessContext.serialize_put (old c : ProcessContext) :
    (serialize B).put old c = c := by
  cases c
  rfl

@[simp] theorem ProcessContext.serialize_fits (c : ProcessContext) :
    (serialize B).fits c = true := by
  simp [serialize]

def optionalChanges : Codec (Option YaParameterChanges) :=
  B.inPlaceOptional ⟨[]⟩ false (YaParameterChanges.serialize B)

def optionalEvents : Codec (Option YaEventList) :=
  B.inPlaceOptional ⟨[]⟩ false (YaEventList.serialize B)

@[simp] theorem optionalChanges_put (old c : Option YaParameterChanges) :
    (optionalChanges B).put old c = c :=
  B.inPlaceOptional_put_of_overwrites _ _ (YaParameterChanges.serialize_put B) old c

@[simp] theorem optionalEvents_put (old l : Option YaEventList) :
    (optionalEvents B).put old l = l :=
  B.inPlaceOptional_put_of_overwrites _ _ (YaEventList.serialize_put B) old l

theorem optionalChanges_fits (c : Option YaParameterChanges) :
    (optionalChanges B).fits c ↔ ∀ x ∈ c, x.Bounded := by
  simp [optionalChanges, Option.all_eq_true, YaParameterChanges.serialize_fits]

theorem optionalEvents_fits (l : Option YaEventList) :
    (optionalEvents B).fits l ↔ ∀ x ∈ l, x.Bounded := by
  simp [optionalEvents, Option.all_eq_true, YaEventList.serialize_fits]

namespace YaProcessData

def serialize : Codec YaProcessData :=
  .record
    [.field (·.process_mode_) (fun d v => { d with process_mode_ := v }) B.value4b,
     .field (·.symbolic_sample_size_) (fun d v => { d with symbolic_sample_size_ := v }) B.value4b,
     .field (·.num_samples_) (fun d v => { d with num_samples_ := v }) B.value4b,
     .field (·.inputs_) (fun d v => { d with inputs_ := v }) (buses B),
     .field (·.outputs_) (fun d v => { d with outputs_ := v }) (buses B),
     .field (·.input_parameter_changes_) (fun d v => { d with input_parameter_changes_ := v })
       (YaParameterChanges.serialize B),
     .field (·.output_parameter_changes_) (fun d v => { d with output_parameter_changes_ := v })
       (optionalChanges B),
     .field (·.input_events_) (fun d v => { d with input_events_ := v }) (optionalEvents B),
     .field (·.output_events_) (fun d v => { d with output_events_ := v }) (optionalEvents B),
     .field (·.process_context_) (fun d v => { d with process_context_ := v })
       (B.inPlaceOptional default true (ProcessContext.serialize B))]

/-- `YaProcessData::Response` only has pointers to three fields of the object it belongs to, so
it is read from and written into that object. -/
def Response.serialize : Codec YaProcessData :=
  .record
    [.field (·.outputs_) (fun d v => { d with outputs_ := v }) (buses B),
     .field (·.output_parameter_changes_) (fun d v => { d with output_parameter_changes_ := v })
       (optionalChanges B),
     .field (·.output_events_) (fun d v => { d with output_events_ := v }) (optionalEvents B)]

theorem serialize_put (old d : YaProcessData) : (serialize B).put old d =
    { d with
      inputs_ := (buses B).put old.inputs_ d.inputs_
      outputs_ := (buses B).put old.outputs_ d.outputs_ } := by
  have hcontext := B.inPlaceOptional_put_of_overwrites default true (ProcessContext.serialize_put B)
  simp only [serialize, Codec.record_cons_put, Codec.record_nil_put, Codec.field_put, hcontext,
    Bitsery.value4b_put, YaParameterChanges.serialize_put, optionalChanges_put,
    optionalEvents_put]

theorem serialize_fits (d : YaProcessData) : (serialize B).fits d ↔
    d.inputs_.length ≤ max_num_speakers ∧ d.outputs_.length ≤ max_num_speakers ∧
      d.input_parameter_changes_.Bounded ∧ (∀ c ∈ d.output_parameter_changes_, c.Bounded) ∧
      (∀ l ∈ d.input_events_, l.Bounded) ∧ ∀ l ∈ d.output_events_, l.Bounded := by
  have hcontext : d.process_context_.all (ProcessContext.serialize B).fits = true := by
    simp [Option.all_eq_true]
  simp only [serialize, Codec.record_cons_fits, Codec.record_nil_fits, Codec.field_fits,
    Bitsery.value4b_fits, Bool.true_and, Bool.and_true, Bool.and_eq_true, buses_fits,
    YaParameterChanges.serialize_fits, optionalChanges_fits, optionalEvents_fits,
    Bitsery.inPlaceOptional_fits, hcontext]

theorem Response.serialize_put (old d : YaProcessData) : (Response.serialize B).put old d =
    { old with
      outputs_ := (buses B).put old.outputs_ d.outputs_
      output_parameter_changes_ := d.output_parameter_changes_
      output_events_ := d.output_events_ } := by
  simp [Response.serialize]

theorem Response.serialize_fits (d : YaProcessData) : (Response.serialize B).fits d ↔
    d.outputs_.length ≤ max_num_speakers ∧ (∀ c ∈ d.output_parameter_changes_, c.Bounded) ∧
      ∀ l ∈ d.output_events_, l.Bounded := by
  simp only [Response.serialize, Codec.record_cons_fits, Codec.record_nil_fits,
    Codec.field_fits, Bool.and_true, Bool.and_eq_true, buses_fits, optionalChanges_fits,
    optionalEvents_fits]

end YaProcessData
end Serialize

/-! ## Reading the host's data and rebuilding it -/

/-- `std::min` of two signed numbers. -/
def minInt32 (a b : UInt32) : UInt32 := if b.toInt32 < a.toInt32 then b else a

/-- The metadata of the host's buses, with no more channels than the shared buffers have. The
pointers of a bus stay what they were. -/
def busMetadata (olds : List AudioBusBuffers) (offsets : List (List UInt32))
    (host : List AudioBusBuffers) : List AudioBusBuffers :=
  host.mapIdx fun bus b =>
    { olds.getD bus default with
      numChannels := minInt32 (UInt32.ofNat (offsets.getD bus []).length) b.numChannels
      silenceFlags := b.silenceFlags }

def setPointers (bs : List AudioBusBuffers) (pointers : List UInt64) : List AudioBusBuffers :=
  bs.mapIdx fun bus b => { b with channelBuffers := pointers.getD bus 0 }

namespace YaProcessData

def fresh : YaProcessData := ⟨0, 0, 0, [], [], ⟨[]⟩, none, none, none, none⟩

/-- There is no result when the host has more buses than the shared buffers. -/
def repopulate (d : YaProcessData) (process_data : ProcessData)
    (shared_audio_buffers : AudioShmBufferConfig) : Option YaProcessData :=
  if process_data.inputs.length ≤ shared_audio_buffers.input_offsets.length ∧
      process_data.outputs.length ≤ shared_audio_buffers.output_offsets.length then
    some
      { process_mode_ := process_data.processMode
        symbolic_sample_size_ := process_data.symbolicSampleSize
        num_samples_ := process_data.numSamples
        inputs_ := busMetadata d.inputs_ shared_audio_buffers.input_offsets process_data.inputs
        outputs_ := busMetadata d.outputs_ shared_audio_buffers.output_offsets process_data.outputs
        input_parameter_changes_ := process_data.inputParameterChanges.elim
          d.input_parameter_changes_.clear d.input_parameter_changes_.repopulate
        -- an object that is already there keeps what it holds
        output_parameter_changes_ := process_data.outputParameterChanges.map fun _ =>
          d.output_parameter_changes_.getD ⟨[]⟩
        input_events_ := process_data.inputEvents.map fun events =>
          (d.input_events_.getD ⟨[]⟩).repopulate events
        output_events_ := process_data.outputEvents.map fun _ => d.output_events_.getD ⟨[]⟩
        process_context_ := process_data.processContext }
  else none

/-- The object after the call and the data for the plugin, whose pointers lead into it. -/
def reconstruct (d : YaProcessData) (input_pointers output_pointers : List UInt64) :
    Option (YaProcessData × ProcessData) :=
  if d.inputs_.length ≤ input_pointers.length ∧ d.outputs_.length ≤ output_pointers.length then
    let d : YaProcessData :=
      { d with
        inputs_ := setPointers d.inputs_ input_pointers
        outputs_ := setPointers d.outputs_ output_pointers
        output_parameter_changes_ := d.output_parameter_changes_.map (·.clear)
        output_events_ := d.output_events_.map (·.clear) }
    some (d,
      { processMode := d.process_mode_
        symbolicSampleSize := d.symbolic_sample_size_
        numSamples := d.num_samples_
        inputs := d.inputs_
        outputs := d.outputs_
        inputParameterChanges := some d.input_parameter_changes_.queues
        outputParameterChanges := d.output_parameter_changes_.map (·.queues)
        inputEvents := d.input_events_.map (·.events)
        outputEvents := d.output_events_.map (·.events)
        processContext := d.process_context_ })
  else none

/-- The host's data with the outputs added to it. The numbers of buses are asserted to agree. -/
def write_back_outputs (d : YaProcessData) (process_data : ProcessData) : Option ProcessData :=
  if d.outputs_.length = process_data.outputs.length then
    some
      { process_data with
        outputs := List.zipWith (fun host b => { host with silenceFlags := b.silenceFlags })
          process_data.outputs d.outputs_
        outputParameterChanges := process_data.outputParameterChanges.map fun output_queues =>
          d.output_parameter_changes_.elim output_queues (·.write_back_outputs output_queues)
        outputEvents := process_data.outputEvents.map fun output_events =>
          d.output_events_.elim output_events (·.write_back_outputs output_events) }
  else none

theorem repopulate_eq_some {d d' : YaProcessData} {host : ProcessData}
    {shared : AudioShmBufferConfig} : d.repopulate host shared = some d' ↔
      (host.inputs.length ≤ shared.input_offsets.length ∧
        host.outputs.length ≤ shared.output_offsets.length) ∧
      d' =
        { process_mode_ := host.processMode
          symbolic_sample_size_ := host.symbolicSampleSize
          num_samples_ := host.numSamples
          inputs_ := busMetadata d.inputs_ shared.input_offsets host.inputs
          outputs_ := busMetadata d.outputs_ shared.output_offsets host.outputs
          input_parameter_changes_ :=
            ⟨(host.inputParameterChanges.getD []).map YaParameterChanges.ofQueue⟩
          output_parameter_changes_ := host.outputParameterChanges.map fun _ =>
            d.output_parameter_changes_.getD ⟨[]⟩
          input_events_ := host.inputEvents.map fun events => ⟨events.map YaEvent.ofEvent⟩
          output_events_ := host.outputEvents.map fun _ => d.output_events_.getD ⟨[]⟩
          process_context_ := host.processContext } := by
  have hqueues : host.inputParameterChanges.elim d.input_parameter_changes_.clear
      d.input_parameter_changes_.repopulate =
        ⟨(host.inputParameterChanges.getD []).map YaParameterChanges.ofQueue⟩ := by
    cases host.inputParameterChanges with
    | none => rfl
    | some qs => exact YaParameterChanges.repopulate_eq _ qs
  unfold repopulate
  split_ifs with h
  · simp only [hqueues, YaEventList.repopulate_eq, Option.some.injEq, h, true_and, eq_comm,
      and_self]
  · simp only [h, false_and]

theorem reconstruct_eq_some {d : YaProcessData} {input_pointers output_pointers : List UInt64}
    {r : YaProcessData × ProcessData} :
    d.reconstruct input_pointers output_pointers = some r ↔
      (d.inputs_.length ≤ input_pointers.length ∧
        d.outputs_.length ≤ output_pointers.length) ∧
      r =
        ({ d with
            inputs_ := setPointers d.inputs_ input_pointers
            outputs_ := setPointers d.outputs_ output_pointers
            output_parameter_changes_ := d.output_parameter_changes_.map fun _ => ⟨[]⟩
            output_events_ := d.output_events_.map fun _ => ⟨[]⟩ },
          { processMode := d.process_mode_
            symbolicSampleSize := d.symbolic_sample_size_
            numSamples := d.num_samples_
            inputs := setPointers d.inputs_ input_pointers
            outputs := setPointers d.outputs_ output_pointers
            inputParameterChanges := some d.input_parameter_changes_.queues
            outputParameterChanges := d.output_parameter_changes_.map fun _ => []
            inputEvents := d.input_events_.map (·.events)
            outputEvents := d.output_events_.map fun _ => []
            processContext := d.process_context_ }) := by
  unfold reconstruct
  split_ifs with h
  · simp only [Option.some.injEq, h, true_and, eq_comm, Option.map_map, and_self]
    rfl
  · simp only [h, false_and]

theorem write_back_outputs_eq_some {d : YaProcessData} {host host' : ProcessData} :
    d.write_back_outputs host = some host' ↔ d.outputs_.length = host.outputs.length ∧
      host' =
        { host with
          outputs := List.zipWith (fun host b => { host with silenceFlags := b.silenceFlags })
            host.outputs d.outputs_
          outputParameterChanges := host.outputParameterChanges.map fun out =>
            out ++ (d.output_parameter_changes_.elim [] (·.queues))
          outputEvents := host.outputEvents.map fun out =>
            out ++ (d.output_events_.elim [] (·.events)) } := by
  have hqueues : ∀ out, d.output_parameter_changes_.elim out (·.write_back_outputs out) =
      out ++ d.output_parameter_changes_.elim [] (·.queues) := by
    intro out
    cases d.output_parameter_changes_ with
    | none => exact (List.append_nil out).symm
    | some c => exact c.write_back_outputs_eq out
  have hevents : ∀ out, d.output_events_.elim out (·.write_back_outputs out) =
      out ++ d.output_events_.elim [] (·.events) := by
    intro out
    cases d.output_events_ with
    | none => exact (List.append_nil out).symm
    | some l => exact l.write_back_outputs_eq out
  unfold write_back_outputs
  split_ifs with h
  · simp only [hqueues, hevents, Option.some.injEq, h, true_and, eq_comm]
  · simp only [h, false_and]

end YaProcessData

@[simp] theorem busMetadata_length (olds host : List AudioBusBuffers)
    (offsets : List (List UInt32)) : (busMetadata olds offsets host).length = host.length :=
  List.length_mapIdx

@[simp] theorem setPointers_length (bs : List AudioBusBuffers) (pointers : List UInt64) :
    (setPointers bs pointers).length = bs.length := List.length_mapIdx

/-- The pointers that a bus had before are of no consequence. -/
theorem setPointers_put (B : Bitsery) (olds bs : List AudioBusBuffers) (pointers : List UInt64) :
    setPointers ((buses B).put olds bs) pointers = setPointers bs pointers :=
  Codec.mapIdx_putList _ _ (fun _ _ _ => rfl) olds bs

theorem setPointers_busMetadata (olds olds' host : List AudioBusBuffers)
    (offsets : List (List UInt32)) (pointers : List UInt64) :
    setPointers (busMetadata olds offsets host) pointers =
      setPointers (busMetadata olds' offsets host) pointers := by
  simp only [setPointers, busMetadata, List.mapIdx_mapIdx]
  rfl

/-- Nothing of the object that was decoded into gets to the plugin. -/
theorem YaProcessData.reconstruct_put (B : Bitsery) (old d : YaProcessData)
    (input_pointers output_pointers : List UInt64) :
    ((serialize B).put old d).reconstruct input_pointers output_pointers =
      d.reconstruct input_pointers output_pointers := by
  unfold reconstruct
  simp only [serialize_put, buses_put_length, setPointers_put]

end Vst3
