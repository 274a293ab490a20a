import Wasivst.Vst3.ProcessData

/-!
# VST3 audio processor requests

`Vst3AudioProcessorRequest` of `serialization/vst3.h` with the messages of `plugin/component.h`,
`plugin/audio-processor.h` and `plugin/prefetchable-support.h` that it can carry. A process
request is sent by reference and decoded into an object that the receiving request keeps.
-/

set_option autoImplicit false

namespace Vst3
open InPlace

namespace YaAudioProcessor

structure SetBusArrangements where
  instance_id : UInt64
  inputs : List UInt64
  num_ins : UInt32
  outputs : List UInt64
  num_outs : UInt32

structure GetBusArrangement where
  instance_id : UInt64
  dir : UInt32
  index : UInt32

structure CanProcessSampleSize where
  instance_id : UInt64
  symbolic_sample_size : UInt32

structure GetLatencySamples where
  instance_id : UInt64

structure ProcessSetup where
  processMode : UInt32
  symbolicSampleSize : UInt32
  maxSamplesPerBlock : UInt32
  sampleRate : UInt64

structure SetupProcessing where
  instance_id : UInt64
  setup : ProcessSetup

structure SetProcessing where
  instance_id : UInt64
  state : UInt8

structure Process where
  instance_id : UInt64
  data : YaProcessData
  new_realtime_priority : Option UInt32

structure GetTailSamples where
  instance_id : UInt64

end YaAudioProcessor

namespace YaComponent

structure GetControllerClassId where
  instance_id : UInt64

structure SetIoMode where
  instance_id : UInt64
  mode : UInt32

structure GetBusCount where
  instance_id : UInt64
  type : UInt32
  dir : UInt32

structure GetBusInfo where
  instance_id : UInt64
  type : UInt32
  dir : UInt32
  index : UInt32

structure RoutingInfo where
  mediaType : UInt32
  busIndex : UInt32
  channel : UInt32

structure GetRoutingInfo where
  instance_id : UInt64
  in_info : RoutingInfo

structure ActivateBus where
  instance_id : UInt64
  type : UInt32
  dir : UInt32
  index : UInt32
  state : UInt8

structure SetActive where
  instance_id : UInt64
  state : UInt8

end YaComponent

structure YaPrefetchableSupport.GetPrefetchableSupport where
  instance_id : UInt64

/-- A pointer to an object of the sender, to the object that the request itself keeps, or the
address that a new reference has. -/
inductive MessageReference
  | unset
  | object (process : YaAudioProcessor.Process)
  | backing

inductive Vst3AudioProcessorRequest.Payload
  | setBusArrangements (request : YaAudioProcessor.SetBusArrangements)
  | getBusArrangement (request : YaAudioProcessor.GetBusArrangement)
  | canProcessSampleSize (request : YaAudioProcessor.CanProcessSampleSize)
  | getLatencySamples (request : YaAudioProcessor.GetLatencySamples)
  | setupProcessing (request : YaAudioProcessor.SetupProcessing)
  | setProcessing (request : YaAudioProcessor.SetProcessing)
  | process (request_ref : MessageReference)
  | getTailSamples (request : YaAudioProcessor.GetTailSamples)
  | getControllerClassId (request : YaComponent.GetControllerClassId)
  | setIoMode (request : YaComponent.SetIoMode)
  | getBusCount (request : YaComponent.GetBusCount)
  | getBusInfo (request : YaComponent.GetBusInfo)
  | getRoutingInfo (request : YaComponent.GetRoutingInfo)
  | activateBus (request : YaComponent.ActivateBus)
  | setActive (request : YaComponent.SetActive)
  | getPrefetchableSupport (request : YaPrefetchableSupport.GetPrefetchableSupport)

structure Vst3AudioProcessorRequest where
  payload : Vst3AudioProcessorRequest.Payload
  process_request_ : Option YaAudioProcessor.Process

/-! ## Serialization -/

section Serialize
variable (B : Bitsery)

namespace YaAudioProcessor

def arrangements : Codec (List UInt64) := B.container max_num_speakers 0 B.value8b

@[simp] theorem arrangements_put (old as : List UInt64) : (arrangements B).put old as = as :=
  Codec.putList_eq _ _ B.value8b_put old as

def SetBusArrangements.serialize : Codec SetBusArrangements :=
  .record
    [.field (·.instance_id) (fun r v => { r with instance_id := v }) B.value8b,
     .field (·.inputs) (fun r v => { r with inputs := v }) (arrangements B),
     .field (·.num_ins) (fun r v => { r with num_ins := v }) B.value4b,
     .field (·.outputs) (fun r v => { r with outputs := v }) (arrangements B),
     .field (·.num_outs) (fun r v => { r with num_outs := v }) B.value4b]

@[simp] theorem SetBusArrangements.serialize_put (old r : SetBusArrangements) :
    (serialize B).put old r = r := by
  simp [serialize]

def GetBusArrangement.serialize : Codec GetBusArrangement :=
  .record
    [.field (·.instance_id) (fun r v => { r with instance_id := v }) B.value8b,
     .field (·.dir) (fun r v => { r with dir := v }) B.value4b,
     .field (·.index) (fun r v => { r with index := v }) B.value4b]

@[simp] theorem GetBusArrangement.serialize_put (old r : GetBusArrangement) :
    (serialize B).put old r = r := rfl

def CanProcessSampleSize.serialize : Codec CanProcessSampleSize :=
  .record
    [.field (·.instance_id) (fun r v => { r with instance_id := v }) B.value8b,
     .field (·.symbolic_sample_size) (fun r v => { r with symbolic_sample_size := v }) B.value4b]

@[simp] theorem CanProcessSampleSize.serialize_put (old r : CanProcessSampleSize) :
    (serialize B).put old r = r := rfl

def GetLatencySamples.serialize : Codec GetLatencySamples :=
  .record [.field (·.instance_id) (fun r v => { r with instance_id := v }) B.value8b]

@[simp] theorem GetLatencySamples.serialize_put (old r : GetLatencySamples) :
    (serialize B).put old r = r := rfl

def ProcessSetup.serialize : Codec ProcessSetup :=
  .record
    [.field (·.processMode) (fun s v => { s with processMode := v }) B.value4b,
     .field (·.symbolicSampleSize) (fun s v => { s with symbolicSampleSize := v }) B.value4b,
     .field (·.maxSamplesPerBlock) (fun s v => { s with maxSamplesPerBlock := v }) B.value4b,
     .field (·.sampleRate) (fun s v => { s with sampleRate := v }) B.value8b]

@[simp] theorem ProcessSetup.serialize_put (old s : ProcessSetup) :
    (serialize B).put old s = s := rfl

def SetupProcessing.serialize : Codec SetupProcessing :=
  .record
    [.field (·.instance_id) (fun r v => { r with instance_id := v }) B.value8b,
     .field (·.setup) (fun r v => { r with setup := v }) (ProcessSetup.serialize B)]

@[simp] theorem SetupProcessing.serialize_put (old r : SetupProcessing) :
    (serialize B).put old r = r := rfl

def SetProcessing.serialize : Codec SetProcessing :=
  .record
    [.field (·.instance_id) (fun r v => { r with instance_id := v }) B.value8b,
     .field (·.state) (fun r v => { r with state := v }) B.value1b]

@[simp] theorem SetProcessing.serialize_put (old r : SetProcessing) :
    (serialize B).put old r = r := rfl

def Process.fresh : Process := ⟨0, .fresh, none⟩

def Process.serialize : Codec Process :=
  .record
    [.field (·.instance_id) (fun r v => { r with instance_id := v }) B.value8b,
     .field (·.data) (fun r v => { r with data := v }) (YaProcessData.serialize B),
     .field (·.new_realtime_priority) (fun r v => { r with new_realtime_priority := v })
       (B.inPlaceOptional 0 true B.value4b)]

theorem Process.serialize_put (old r : Process) : (serialize B).put old r =
    { r with data := (YaProcessData.serialize B).put old.data r.data } := by
  have hpriority := B.inPlaceOptional_put_of_overwrites 0 true B.value4b_put
  simp only [serialize, Codec.record_cons_put, Codec.record_nil_put, Codec.field_put, hpriority,
    Bitsery.value8b_put]

theorem Process.serialize_fits (r : Process) :
    (serialize B).fits r ↔ (YaProcessData.serialize B).fits r.data := by
  simp [serialize, Option.all_eq_true]

def GetTailSamples.serialize : Codec GetTailSamples :=
  .record [.field (·.instance_id) (fun r v => { r with instance_id := v }) B.value8b]

@[simp] theorem GetTailSamples.serialize_put (old r : GetTailSamples) :
    (serialize B).put old r = r := rfl

end YaAudioProcessor

namespace YaComponent

def GetControllerClassId.serialize : Codec GetControllerClassId :=
  .record [.field (·.instance_id) (fun r v => { r with instance_id := v }) B.value8b]

@[simp] theorem GetControllerClassId.serialize_put (old r : GetControllerClassId) :
    (serialize B).put old r = r := rfl

def SetIoMode.serialize : Codec SetIoMode :=
  .record
    [.field (·.instance_id) (fun r v => { r with instance_id := v }) B.value8b,
     .field (·.mode) (fun r v => { r with mode := v }) B.value4b]

@[simp] theorem SetIoMode.serialize_put (old r : SetIoMode) : (serialize B).put old r = r := rfl

def GetBusCount.serialize : Codec GetBusCount :=
  .record
    [.field (·.instance_id) (fun r v => { r with instance_id := v }) B.value8b,
     .field (·.type) (fun r v => { r with type := v }) B.value4b,
     .field (·.dir) (fun r v => { r with dir := v }) B.value4b]

@[simp] theorem GetBusCount.serialize_put (old r : GetBusCount) :
    (serialize B).put old r = r := rfl

def GetBusInfo.serialize : Codec GetBusInfo :=
  .record
    [.field (·.instance_id) (fun r v => { r with instance_id := v }) B.value8b,
     .field (·.type) (fun r v => { r with type := v }) B.value4b,
     .field (·.dir) (fun r v => { r with dir := v }) B.value4b,
     .field (·.index) (fun r v => { r with index := v }) B.value4b]

@[simp] theorem GetBusInfo.serialize_put (old r : GetBusInfo) :
    (serialize B).put old r = r := rfl

def RoutingInfo.serialize : Codec RoutingInfo :=
  .record
    [.field (·.mediaType) (fun i v => { i with mediaType := v }) B.value4b,
     .field (·.busIndex) (fun i v => { i with busIndex := v }) B.value4b,
     .field (·.channel) (fun i v => { i with channel := v }) B.value4b]

@[simp] theorem RoutingInfo.serialize_put (old i : RoutingInfo) :
    (serialize B).put old i = i := rfl

def GetRoutingInfo.serialize : Codec GetRoutingInfo :=
  .record
    [.field (·.instance_id) (fun r v => { r with instance_id := v }) B.value8b,
     .field (·.in_info) (fun r v => { r with in_info := v }) (RoutingInfo.serialize B)]

@[simp] theorem GetRoutingInfo.serialize_put (old r : GetRoutingInfo) :
    (serialize B).put old r = r := rfl

def ActivateBus.serialize : Codec ActivateBus :=
  .record
    [.field (·.instance_id) (fun r v => { r with instance_id := v }) B.value8b,
     .field (·.type) (fun r v => { r with type := v }) B.value4b,
     .field (·.dir) (fun r v => { r with dir := v }) B.value4b,
     .field (·.index) (fun r v => { r with index := v }) B.value4b,
     .field (·.state) (fun r v => { r with state := v }) B.value1b]

@[simp] theorem ActivateBus.serialize_put (old r : ActivateBus) :
    (serialize B).put old r = r := rfl

def SetActive.serialize : Codec SetActive :=
  .record
    [.field (·.instance_id) (fun r v => { r with instance_id := v }) B.value8b,
     .field (·.state) (fun r v => { r with state := v }) B.value1b]

@[simp] theorem SetActive.serialize_put (old r : SetActive) : (serialize B).put old r = r := rfl

end YaComponent

def YaPrefetchableSupport.GetPrefetchableSupport.serialize :
    Codec YaPrefetchableSupport.GetPrefetchableSupport :=
  .record [.field (·.instance_id) (fun r v => { r with instance_id := v }) B.value8b]

@[simp] theorem YaPrefetchableSupport.GetPrefetchableSupport.serialize_put
    (old r : YaPrefetchableSupport.GetPrefetchableSupport) : (serialize B).put old r = r := rfl

namespace Vst3AudioProcessorRequest

def fresh : Vst3AudioProcessorRequest := ⟨.setBusArrangements ⟨0, [], 0, [], 0⟩, none⟩

/-- What a reference of the request leads to. -/
def get (self : Vst3AudioProcessorRequest) : MessageReference → Option YaAudioProcessor.Process
  | .unset => none
  | .object process => some process
  | .backing => self.process_request_

/-- The process request that a handler of the payload gets. -/
def process (self : Vst3AudioProcessorRequest) : Option YaAudioProcessor.Process :=
  match self.payload with
  | .process request_ref => self.get request_ref
  | _ => none

def ofProcess (process : YaAudioProcessor.Process) : Vst3AudioProcessorRequest :=
  ⟨.process (.object process), none⟩

/-- An alternative that is an object of its own leaves `process_request_` alone. -/
def alternative {T : Type} (proj : Payload → Option T) (inj : T → Payload) (fresh : T)
    (trivial : Bool) (c : Codec T) : Alt Vst3AudioProcessorRequest where
  T := T
  proj self := proj self.payload
  start self := Codec.start fresh (!trivial) (proj self.payload)
  inj self v := { self with payload := inj v }
  codec := c

/-- The extension writes the object behind the reference. It reads into `process_request_`, which
it creates if need be, and lets the reference show that. -/
def messageReference : Alt Vst3AudioProcessorRequest where
  T := YaAudioProcessor.Process
  proj := process
  start self := self.process_request_.getD .fresh
  inj _ v := ⟨.process .backing, some v⟩
  codec := YaAudioProcessor.Process.serialize B

def alternatives : List (Alt Vst3AudioProcessorRequest) :=
  [alternative (fun | .setBusArrangements r => some r | _ => none) .setBusArrangements
     ⟨0, [], 0, [], 0⟩ false (YaAudioProcessor.SetBusArrangements.serialize B),
   alternative (fun | .getBusArrangement r => some r | _ => none) .getBusArrangement
     ⟨0, 0, 0⟩ true (YaAudioProcessor.GetBusArrangement.serialize B),
   alternative (fun | .canProcessSampleSize r => some r | _ => none) .canProcessSampleSize
     ⟨0, 0⟩ true (YaAudioProcessor.CanProcessSampleSize.serialize B),
   alternative (fun | .getLatencySamples r => some r | _ => none) .getLatencySamples
     ⟨0⟩ true (YaAudioProcessor.GetLatencySamples.serialize B),
   alternative (fun | .setupProcessing r => some r | _ => none) .setupProcessing
     ⟨0, ⟨0, 0, 0, 0⟩⟩ true (YaAudioProcessor.SetupProcessing.serialize B),
   alternative (fun | .setProcessing r => some r | _ => none) .setProcessing
     ⟨0, 0⟩ true (YaAudioProcessor.SetProcessing.serialize B),
   messageReference B,
   alternative (fun | .getTailSamples r => some r | _ => none) .getTailSamples
     ⟨0⟩ true (YaAudioProcessor.GetTailSamples.serialize B),
   alternative (fun | .getControllerClassId r => some r | _ => none) .getControllerClassId
     ⟨0⟩ true (YaComponent.GetControllerClassId.serialize B),
   alternative (fun | .setIoMode r => some r | _ => none) .setIoMode
     ⟨0, 0⟩ true (YaComponent.SetIoMode.serialize B),
   alternative (fun | .getBusCount r => some r | _ => none) .getBusCount
     ⟨0, 0, 0⟩ true (YaComponent.GetBusCount.serialize B),
   alternative (fun | .getBusInfo r => some r | _ => none) .getBusInfo
     ⟨0, 0, 0, 0⟩ true (YaComponent.GetBusInfo.serialize B),
   alternative (fun | .getRoutingInfo r => some r | _ => none) .getRoutingInfo
     ⟨0, ⟨0, 0, 0⟩⟩ true (YaComponent.GetRoutingInfo.serialize B),
   alternative (fun | .activateBus r => some r | _ => none) .activateBus
     ⟨0, 0, 0, 0, 0⟩ true (YaComponent.ActivateBus.serialize B),
   alternative (fun | .setActive r => some r | _ => none) .setActive
     ⟨0, 0⟩ true (YaComponent.SetActive.serialize B),
   alternative (fun | .getPrefetchableSupport r => some r | _ => none) .getPrefetchableSupport
     ⟨0⟩ true (YaPrefetchableSupport.GetPrefetchableSupport.serialize B)]

def serialize : Codec Vst3AudioProcessorRequest := B.inPlaceVariant (alternatives B)

/-! ## Decoding in place -/

theorem ofProcess_put (old : Vst3AudioProcessorRequest) (y : YaAudioProcessor.Process) :
    (serialize B).put old (ofProcess y) =
      ⟨.process .backing, some ((YaAudioProcessor.Process.serialize B).put
        (old.process_request_.getD .fresh) y)⟩ := by
  simp [serialize, alternatives, Codec.putAlts, Alt.put, alternative, messageReference, ofProcess,
    process, get]

/-- Any other request leaves the object for process requests alone. -/
theorem other_put (old x : Vst3AudioProcessorRequest) (h : ∀ ref, x.payload ≠ .process ref) :
    (serialize B).put old x = { old with payload := x.payload } := by
  obtain ⟨p, q⟩ := x
  cases p with
  | process ref => exact absurd rfl (h ref)
  | setBusArrangements r => simp [serialize, alternatives, Codec.putAlts, Alt.put, alternative]
  -- the other requests have numbers only
  | _ => rfl

theorem ofProcess_fits (y : YaAudioProcessor.Process) :
    (serialize B).fits (ofProcess y) ↔ (YaProcessData.serialize B).fits y.data := by
  rw [← YaAudioProcessor.Process.serialize_fits]
  simp [serialize, alternatives, Codec.fitsAlts, alternative, messageReference, ofProcess,
    process, get, B.fitsSize]

end Vst3AudioProcessorRequest
end Serialize

/-- The fields that are sent: those of a bus without its pointer. -/
def YaProcessData.serialized (d : YaProcessData) : YaProcessData :=
  { d with
    inputs_ := d.inputs_.map fun b => { b with channelBuffers := 0 }
    outputs_ := d.outputs_.map fun b => { b with channelBuffers := 0 } }

def YaAudioProcessor.Process.serialized (r : Process) : Process :=
  { r with data := r.data.serialized }

/-- The declared maxima of the lists, texts and bytes. -/
structure YaAudioProcessor.Process.Bounded (r : Process) : Prop where
  inputs : r.data.inputs_.length ≤ max_num_speakers
  outputs : r.data.outputs_.length ≤ max_num_speakers
  parameterChanges : r.data.input_parameter_changes_.Bounded
  outputParameterChanges : ∀ c ∈ r.data.output_parameter_changes_, c.Bounded
  events : ∀ l ∈ r.data.input_events_, l.Bounded
  outputEvents : ∀ l ∈ r.data.output_events_, l.Bounded

theorem YaProcessData.serialized_put (B : Bitsery) (old d : YaProcessData) :
    ((serialize B).put old d).serialized = d.serialized := by
  have hbuses : ∀ olds bs : List AudioBusBuffers,
      ((buses B).put olds bs).map (fun b => { b with channelBuffers := 0 }) =
        bs.map fun b => { b with channelBuffers := 0 } := map_buses_put B fun _ _ => rfl
  simp only [serialize_put, serialized, hbuses]

namespace Vst3AudioProcessorRequest

/-- The handler of the request gets a process request with the fields of `y`, and rebuilds from it
what it would rebuild from `y`. -/
def Holds (self : Vst3AudioProcessorRequest) (y : YaAudioProcessor.Process) : Prop :=
  ∃ p, self.process = some p ∧ p.serialized = y.serialized ∧
    ∀ input_pointers output_pointers, p.data.reconstruct input_pointers output_pointers =
      y.data.reconstruct input_pointers output_pointers

theorem put_holds (B : Bitsery) (old : Vst3AudioProcessorRequest) (y : YaAudioProcessor.Process) :
    ((serialize B).put old (ofProcess y)).Holds y := by
  rw [ofProcess_put, YaAudioProcessor.Process.serialize_put]
  refine ⟨_, rfl, ?_, ?_⟩
  · simp only [YaAudioProcessor.Process.serialized, YaProcessData.serialized_put]
  · exact fun _ _ => YaProcessData.reconstruct_put B _ _ _ _

/-- A process request decoded into a request that held anything before is as good as one that is
decoded into a new object, and as good as the one that was sent. -/
theorem process_decoded_in_place (B : Bitsery) (old : Vst3AudioProcessorRequest)
    {y : YaAudioProcessor.Process} (hy : y.Bounded) :
    ∃ r r₀ p p₀,
      (serialize B).decode old ((serialize B).write (ofProcess y)) = some r ∧
      (serialize B).decode fresh ((serialize B).write (ofProcess y)) = some r₀ ∧
      r.process = some p ∧ r₀.process = some p₀ ∧ p.serialized = p₀.serialized ∧
      (∀ input_pointers output_pointers, p.data.reconstruct input_pointers output_pointers =
        p₀.data.reconstruct input_pointers output_pointers) ∧ r.Holds y := by
  have hfits := (ofProcess_fits B y).mpr ((YaProcessData.serialize_fits B y.data).mpr
    ⟨hy.inputs, hy.outputs, hy.parameterChanges, hy.outputParameterChanges, hy.events,
      hy.outputEvents⟩)
  obtain ⟨p, hp, hserialized, hreconstruct⟩ := put_holds B old y
  obtain ⟨p₀, hp₀, hserialized₀, hreconstruct₀⟩ := put_holds B fresh y
  refine ⟨_, _, p, p₀, Codec.decode_write _ _ hfits, Codec.decode_write _ _ hfits, hp, hp₀, ?_, ?_,
    ⟨p, hp, hserialized, hreconstruct⟩⟩
  · rw [hserialized, hserialized₀]
  · intro input_pointers output_pointers
    rw [hreconstruct, hreconstruct₀]

/-- A stereo input, a parameter with two points, a chord with its name, and a context. -/
def filled : YaAudioProcessor.Process where
  instance_id := 3
  data :=
    { YaProcessData.fresh with
      num_samples_ := 64
      inputs_ := [⟨2, 0, 4096⟩]
      outputs_ := [⟨2, 3, 8192⟩]
      input_parameter_changes_ := ⟨[⟨9, [⟨0, 1⟩, ⟨32, 2⟩]⟩]⟩
      input_events_ := some ⟨[.ofEvent ⟨0, 5, 0, 0, .chord ⟨60, 48, 145, [67, 109]⟩⟩]⟩
      output_events_ := some ⟨[]⟩
      process_context_ := some default }
  new_realtime_priority := some 5

theorem bounded_filled : filled.Bounded where
  inputs := by decide
  outputs := by decide
  parameterChanges := by simp [filled, YaParameterChanges.Bounded]
  outputParameterChanges := by simp [filled, YaProcessData.fresh]
  events := by
    simp [filled, YaEventList.Bounded, YaEvent.ofEvent, YaEvent.Payload.ofData,
      YaEvent.Payload.Bounded, YaChordEvent.ofEvent]
  outputEvents := by simp [filled, YaEventList.Bounded]

/-- The kept object holds another process request, and the two differ in what they have. -/
theorem filled_decoded_in_place :
    ∃ r r₀ p p₀,
      (serialize .default).decode
        ⟨.getTailSamples ⟨1⟩,
          some ⟨1, { YaProcessData.fresh with output_parameter_changes_ := some ⟨[]⟩ }, none⟩⟩
        ((serialize .default).write (ofProcess filled)) = some r ∧
      (serialize .default).decode fresh ((serialize .default).write (ofProcess filled)) =
        some r₀ ∧
      r.process = some p ∧ r₀.process = some p₀ ∧ p.serialized = p₀.serialized ∧
      (∀ input_pointers output_pointers, p.data.reconstruct input_pointers output_pointers =
        p₀.data.reconstruct input_pointers output_pointers) ∧ r.Holds filled :=
  process_decoded_in_place .default _ bounded_filled

end Vst3AudioProcessorRequest
end Vst3
