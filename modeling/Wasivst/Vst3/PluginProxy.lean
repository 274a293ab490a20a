import Wasivst.Bitsery

/-!
# The VST3 plugin proxy

`Vst3PluginProxy` of `serialization/vst3/plugin-proxy.{h,cpp}` with the five lists that carry an
interface from the original object to the proxy: the reader, the serializer, the constructor,
`queryInterface()` and `update_supported_interfaces()`. Every `Ya*` base class holds the same
`ConstructArgs`, a flag that says whether the object had the interface.
-/

set_option autoImplicit false

namespace Vst3
open InPlace

inductive Interface
  | audioPresentationLatency
  | audioProcessor
  | automationState
  | component
  | connectionPoint
  | editController
  | editController2
  | editControllerHostEditing
  | infoListener
  | keyswitchController
  | midiLearn
  | midiMapping
  | noteExpressionController
  | noteExpressionPhysicalUIMapping
  | parameterFunctionName
  | pluginBase
  | prefetchableSupport
  | processContextRequirements
  | programListData
  | unitData
  | unitInfo
  | xmlRepresentationController
  deriving DecidableEq

/-- The interface ids that `queryInterface()` compares with; any other id is `other`. -/
inductive Iid
  | fUnknown
  | of (i : Interface)
  | other (id : Nat)
  deriving DecidableEq

/-- What a plugin object answers to `FUnknownPtr<I>(object)`. -/
abbrev Object := Interface → Bool

/-- `Ya*::ConstructArgs`, the same class for every interface. -/
structure InterfaceArgs where
  supported : Bool
  deriving DecidableEq

namespace InterfaceArgs

def ofObject (object : Object) (i : Interface) : InterfaceArgs := ⟨object i⟩

def serialize (B : Bitsery) : Codec InterfaceArgs :=
  .record [.field (·.supported) (fun a v => { a with supported := v }) B.bool1b]

@[simp] theorem serialize_fits (B : Bitsery) (a : InterfaceArgs) :
    (serialize B).fits a = true := by
  simp [serialize]

end InterfaceArgs

structure ConstructArgs where
  instance_id : UInt64
  audio_presentation_latency_args : InterfaceArgs
  audio_processor_args : InterfaceArgs
  automation_state_args : InterfaceArgs
  component_args : InterfaceArgs
  connection_point_args : InterfaceArgs
  edit_controller_args : InterfaceArgs
  edit_controller_2_args : InterfaceArgs
  edit_controller_host_editing_args : InterfaceArgs
  info_listener_args : InterfaceArgs
  keyswitch_controller_args : InterfaceArgs
  midi_learn_args : InterfaceArgs
  midi_mapping_args : InterfaceArgs
  note_expression_controller_args : InterfaceArgs
  note_expression_physical_ui_mapping_args : InterfaceArgs
  parameter_function_name_args : InterfaceArgs
  plugin_base_args : InterfaceArgs
  prefetchable_support_args : InterfaceArgs
  process_context_requirements_args : InterfaceArgs
  program_list_data_args : InterfaceArgs
  unit_data_args : InterfaceArgs
  unit_info_args : InterfaceArgs
  xml_representation_controller_args : InterfaceArgs

namespace ConstructArgs

/-- `ConstructArgs(object, instance_id)`. The initializer list leaves
`note_expression_physical_ui_mapping_args` to its default constructor, which does not set the
flag: it keeps what `uninitialized` says the memory held. -/
def ofObject (object : Object) (instance_id : UInt64) (uninitialized : Bool) : ConstructArgs where
  instance_id := instance_id
  audio_presentation_latency_args := .ofObject object .audioPresentationLatency
  audio_processor_args := .ofObject object .audioProcessor
  automation_state_args := .ofObject object .automationState
  component_args := .ofObject object .component
  connection_point_args := .ofObject object .connectionPoint
  edit_controller_args := .ofObject object .editController
  edit_controller_2_args := .ofObject object .editController2
  edit_controller_host_editing_args := .ofObject object .editControllerHostEditing
  info_listener_args := .ofObject object .infoListener
  keyswitch_controller_args := .ofObject object .keyswitchController
  midi_learn_args := .ofObject object .midiLearn
  midi_mapping_args := .ofObject object .midiMapping
  note_expression_controller_args := .ofObject object .noteExpressionController
  note_expression_physical_ui_mapping_args := ⟨uninitialized⟩
  parameter_function_name_args := .ofObject object .parameterFunctionName
  plugin_base_args := .ofObject object .pluginBase
  prefetchable_support_args := .ofObject object .prefetchableSupport
  process_context_requirements_args := .ofObject object .processContextRequirements
  program_list_data_args := .ofObject object .programListData
  unit_data_args := .ofObject object .unitData
  unit_info_args := .ofObject object .unitInfo
  xml_representation_controller_args := .ofObject object .xmlRepresentationController

def serialize (B : Bitsery) : Codec ConstructArgs :=
  let object := InterfaceArgs.serialize B
  .record
    [.field (·.instance_id) (fun a v => { a with instance_id := v }) B.value8b,
     .field (·.audio_presentation_latency_args)
       (fun a v => { a with audio_presentation_latency_args := v }) object,
     .field (·.audio_processor_args) (fun a v => { a with audio_processor_args := v }) object,
     .field (·.automation_state_args) (fun a v => { a with automation_state_args := v }) object,
     .field (·.component_args) (fun a v => { a with component_args := v }) object,
     .field (·.connection_point_args) (fun a v => { a with connection_point_args := v }) object,
     .field (·.edit_controller_args) (fun a v => { a with edit_controller_args := v }) object,
     .field (·.edit_controller_2_args) (fun a v => { a with edit_controller_2_args := v }) object,
     .field (·.edit_controller_host_editing_args)
       (fun a v => { a with edit_controller_host_editing_args := v }) object,
     .field (·.info_listener_args) (fun a v => { a with info_listener_args := v }) object,
     .field (·.keyswitch_controller_args)
       (fun a v => { a with keyswitch_controller_args := v }) object,
     .field (·.midi_learn_args) (fun a v => { a with midi_learn_args := v }) object,
     .field (·.midi_mapping_args) (fun a v => { a with midi_mapping_args := v }) object,
     .field (·.note_expression_controller_args)
       (fun a v => { a with note_expression_controller_args := v }) object,
     .field (·.note_expression_physical_ui_mapping_args)
       (fun a v => { a with note_expression_physical_ui_mapping_args := v }) object,
     .field (·.parameter_function_name_args)
       (fun a v => { a with parameter_function_name_args := v }) object,
     .field (·.plugin_base_args) (fun a v => { a with plugin_base_args := v }) object,
     .field (·.prefetchable_support_args)
       (fun a v => { a with prefetchable_support_args := v }) object,
     .field (·.process_context_requirements_args)
       (fun a v => { a with process_context_requirements_args := v }) object,
     .field (·.program_list_data_args) (fun a v => { a with program_list_data_args := v }) object,
     .field (·.unit_data_args) (fun a v => { a with unit_data_args := v }) object,
     .field (·.unit_info_args) (fun a v => { a with unit_info_args := v }) object,
     .field (·.xml_representation_controller_args)
       (fun a v => { a with xml_representation_controller_args := v }) object]

@[simp] theorem serialize_put (B : Bitsery) (old a : ConstructArgs) :
    (serialize B).put old a = a := by
  cases a
  rfl

@[simp] theorem serialize_fits (B : Bitsery) (a : ConstructArgs) :
    (serialize B).fits a = true := by
  simp [serialize]

def args (a : ConstructArgs) : Interface → InterfaceArgs
  | .audioPresentationLatency => a.audio_presentation_latency_args
  | .audioProcessor => a.audio_processor_args
  | .automationState => a.automation_state_args
  | .component => a.component_args
  | .connectionPoint => a.connection_point_args
  | .editController => a.edit_controller_args
  | .editController2 => a.edit_controller_2_args
  | .editControllerHostEditing => a.edit_controller_host_editing_args
  | .infoListener => a.info_listener_args
  | .keyswitchController => a.keyswitch_controller_args
  | .midiLearn => a.midi_learn_args
  | .midiMapping => a.midi_mapping_args
  | .noteExpressionController => a.note_expression_controller_args
  | .noteExpressionPhysicalUIMapping => a.note_expression_physical_ui_mapping_args
  | .parameterFunctionName => a.parameter_function_name_args
  | .pluginBase => a.plugin_base_args
  | .prefetchableSupport => a.prefetchable_support_args
  | .processContextRequirements => a.process_context_requirements_args
  | .programListData => a.program_list_data_args
  | .unitData => a.unit_data_args
  | .unitInfo => a.unit_info_args
  | .xmlRepresentationController => a.xml_representation_controller_args

/-- The reader fills in every interface but one. -/
theorem args_ofObject (object : Object) (instance_id : UInt64) (uninitialized : Bool)
    (i : Interface) : (ofObject object instance_id uninitialized).args i =
      if i = .noteExpressionPhysicalUIMapping then ⟨uninitialized⟩ else ⟨object i⟩ := by
  cases i <;> rfl

end ConstructArgs

/-- The proxy: the arguments of each base class and its own. -/
structure Vst3PluginProxy where
  yaAudioPresentationLatency : InterfaceArgs
  yaAudioProcessor : InterfaceArgs
  yaAutomationState : InterfaceArgs
  yaComponent : InterfaceArgs
  yaConnectionPoint : InterfaceArgs
  yaEditController : InterfaceArgs
  yaEditController2 : InterfaceArgs
  yaEditControllerHostEditing : InterfaceArgs
  yaInfoListener : InterfaceArgs
  yaKeyswitchController : InterfaceArgs
  yaMidiLearn : InterfaceArgs
  yaMidiMapping : InterfaceArgs
  yaNoteExpressionController : InterfaceArgs
  yaNoteExpressionPhysicalUIMapping : InterfaceArgs
  yaParameterFunctionName : InterfaceArgs
  yaPluginBase : InterfaceArgs
  yaPrefetchableSupport : InterfaceArgs
  yaProcessContextRequirements : InterfaceArgs
  yaProgramListData : InterfaceArgs
  yaUnitData : InterfaceArgs
  yaUnitInfo : InterfaceArgs
  yaXmlRepresentationController : InterfaceArgs
  arguments_ : ConstructArgs

namespace Vst3PluginProxy

def ofArgs (args : ConstructArgs) : Vst3PluginProxy where
  yaAudioPresentationLatency := args.audio_presentation_latency_args
  yaAudioProcessor := args.audio_processor_args
  yaAutomationState := args.automation_state_args
  yaComponent := args.component_args
  yaConnectionPoint := args.connection_point_args
  yaEditController := args.edit_controller_args
  yaEditController2 := args.edit_controller_2_args
  yaEditControllerHostEditing := args.edit_controller_host_editing_args
  yaInfoListener := args.info_listener_args
  yaKeyswitchController := args.keyswitch_controller_args
  yaMidiLearn := args.midi_learn_args
  yaMidiMapping := args.midi_mapping_args
  yaNoteExpressionController := args.note_expression_controller_args
  yaNoteExpressionPhysicalUIMapping := args.note_expression_physical_ui_mapping_args
  yaParameterFunctionName := args.parameter_function_name_args
  yaPluginBase := args.plugin_base_args
  yaPrefetchableSupport := args.prefetchable_support_args
  yaProcessContextRequirements := args.process_context_requirements_args
  yaProgramListData := args.program_list_data_args
  yaUnitData := args.unit_data_args
  yaUnitInfo := args.unit_info_args
  yaXmlRepresentationController := args.xml_representation_controller_args
  arguments_ := args

/-- The result says as which base `*obj` is set; `none` is `kNoInterface`. -/
def queryInterface (p : Vst3PluginProxy) (_iid : Iid) : Option Interface :=
  if p.yaPluginBase.supported && _iid = .fUnknown then some .pluginBase
  else if p.yaPluginBase.supported && _iid = .of .pluginBase then some .pluginBase
  else if p.yaAudioPresentationLatency.supported && _iid = .of .audioPresentationLatency then
    some .audioPresentationLatency
  else if p.yaAudioProcessor.supported && _iid = .of .audioProcessor then some .audioProcessor
  else if p.yaAutomationState.supported && _iid = .of .automationState then some .automationState
  else if p.yaComponent.supported && _iid = .of .component then some .component
  else if p.yaConnectionPoint.supported && _iid = .of .connectionPoint then some .connectionPoint
  else if p.yaEditController.supported && _iid = .of .editController then some .editController
  else if p.yaEditController2.supported && _iid = .of .editController2 then some .editController2
  else if p.yaEditControllerHostEditing.supported && _iid = .of .editControllerHostEditing then
    some .editControllerHostEditing
  else if p.yaInfoListener.supported && _iid = .of .infoListener then some .infoListener
  else if p.yaKeyswitchController.supported && _iid = .of .keyswitchController then
    some .keyswitchController
  else if p.yaMidiLearn.supported && _iid = .of .midiLearn then some .midiLearn
  else if p.yaMidiMapping.supported && _iid = .of .midiMapping then some .midiMapping
  else if p.yaNoteExpressionController.supported && _iid = .of .noteExpressionController then
    some .noteExpressionController
  else if p.yaNoteExpressionPhysicalUIMapping.supported &&
      _iid = .of .noteExpressionPhysicalUIMapping then
    some .noteExpressionPhysicalUIMapping
  else if p.yaParameterFunctionName.supported && _iid = .of .parameterFunctionName then
    some .parameterFunctionName
  else if p.yaPrefetchableSupport.supported && _iid = .of .prefetchableSupport then
    some .prefetchableSupport
  else if p.yaProcessContextRequirements.supported && _iid = .of .processContextRequirements then
    some .processContextRequirements
  else if p.yaProgramListData.supported && _iid = .of .programListData then some .programListData
  else if p.yaUnitData.supported && _iid = .of .unitData then some .unitData
  else if p.yaUnitInfo.supported && _iid = .of .unitInfo then some .unitInfo
  else if p.yaXmlRepresentationController.supported && _iid = .of .xmlRepresentationController then
    some .xmlRepresentationController
  else none

/-- The assertion on the instance id is the only way to fail. -/
def update_supported_interfaces (p : Vst3PluginProxy) (updated_interfaces : ConstructArgs) :
    Option Vst3PluginProxy :=
  if p.arguments_.instance_id = updated_interfaces.instance_id then some
    { yaAudioPresentationLatency := updated_interfaces.audio_presentation_latency_args
      yaAudioProcessor := updated_interfaces.audio_processor_args
      yaAutomationState := updated_interfaces.automation_state_args
      yaComponent := updated_interfaces.component_args
      yaConnectionPoint := updated_interfaces.connection_point_args
      yaEditController := updated_interfaces.edit_controller_args
      yaEditController2 := updated_interfaces.edit_controller_2_args
      yaEditControllerHostEditing := updated_interfaces.edit_controller_host_editing_args
      yaInfoListener := updated_interfaces.info_listener_args
      yaKeyswitchController := updated_interfaces.keyswitch_controller_args
      yaMidiLearn := updated_interfaces.midi_learn_args
      yaMidiMapping := updated_interfaces.midi_mapping_args
      yaNoteExpressionController := updated_interfaces.note_expression_controller_args
      yaNoteExpressionPhysicalUIMapping :=
        updated_interfaces.note_expression_physical_ui_mapping_args
      yaParameterFunctionName := updated_interfaces.parameter_function_name_args
      yaPluginBase := updated_interfaces.plugin_base_args
      yaPrefetchableSupport := updated_interfaces.prefetchable_support_args
      yaProcessContextRequirements := updated_interfaces.process_context_requirements_args
      yaProgramListData := updated_interfaces.program_list_data_args
      yaUnitData := updated_interfaces.unit_data_args
      yaUnitInfo := updated_interfaces.unit_info_args
      yaXmlRepresentationController := updated_interfaces.xml_representation_controller_args
      arguments_ := updated_interfaces }
  else none

def supported (p : Vst3PluginProxy) : Interface → Bool
  | .audioPresentationLatency => p.yaAudioPresentationLatency.supported
  | .audioProcessor => p.yaAudioProcessor.supported
  | .automationState => p.yaAutomationState.supported
  | .component => p.yaComponent.supported
  | .connectionPoint => p.yaConnectionPoint.supported
  | .editController => p.yaEditController.supported
  | .editController2 => p.yaEditController2.supported
  | .editControllerHostEditing => p.yaEditControllerHostEditing.supported
  | .infoListener => p.yaInfoListener.supported
  | .keyswitchController => p.yaKeyswitchController.supported
  | .midiLearn => p.yaMidiLearn.supported
  | .midiMapping => p.yaMidiMapping.supported
  | .noteExpressionController => p.yaNoteExpressionController.supported
  | .noteExpressionPhysicalUIMapping => p.yaNoteExpressionPhysicalUIMapping.supported
  | .parameterFunctionName => p.yaParameterFunctionName.supported
  | .pluginBase => p.yaPluginBase.supported
  | .prefetchableSupport => p.yaPrefetchableSupport.supported
  | .processContextRequirements => p.yaProcessContextRequirements.supported
  | .programListData => p.yaProgramListData.supported
  | .unitData => p.yaUnitData.supported
  | .unitInfo => p.yaUnitInfo.supported
  | .xmlRepresentationController => p.yaXmlRepresentationController.supported

@[simp] theorem supported_ofArgs (args : ConstructArgs) (i : Interface) :
    (ofArgs args).supported i = (args.args i).supported := by
  cases i <;> rfl

/-- An update leaves what the constructor would have made of the same arguments. -/
theorem update_eq_some {p q : Vst3PluginProxy} {args : ConstructArgs} :
    p.update_supported_interfaces args = some q ↔
      p.arguments_.instance_id = args.instance_id ∧ q = ofArgs args := by
  unfold update_supported_interfaces
  split_ifs with h
  · simp [h, ofArgs, eq_comm]
  · simp [h]

theorem queryInterface_of (p : Vst3PluginProxy) (i : Interface) :
    p.queryInterface (.of i) = if p.supported i then some i else none := by
  cases i <;>
    simp only [queryInterface, supported, Bool.and_eq_true, decide_eq_true_eq, Iid.of.injEq,
      reduceCtorEq, and_false, and_true, if_false] <;>
    congr

theorem queryInterface_isSome (p : Vst3PluginProxy) (i : Interface) :
    (p.queryInterface (.of i)).isSome = p.supported i := by
  rw [queryInterface_of]
  cases p.supported i <;> rfl

/-! ## Reading an object and keeping the proxy up to date -/

/-- The proxy answers for the 22 interfaces as the object does. -/
def Mimics (p : Vst3PluginProxy) (object : Object) : Prop :=
  ∀ i, (p.queryInterface (.of i)).isSome ↔ object i

/-- One reading of the object: the interfaces it has at that moment, what the flag that the
reader leaves out was before, and the arguments that the other side decodes into. -/
structure Reading where
  object : Object
  uninitialized : Bool
  into : ConstructArgs

variable (B : Bitsery) (instance_id : UInt64)

/-- The arguments as they arrive on the side of the proxy. -/
def Reading.receive (r : Reading) : Option ConstructArgs :=
  (ConstructArgs.serialize B).transfer r.into (.ofObject r.object instance_id r.uninitialized)

def construct (r : Reading) : Option Vst3PluginProxy := (r.receive B instance_id).map ofArgs

def update (p : Vst3PluginProxy) (r : Reading) : Option Vst3PluginProxy :=
  (r.receive B instance_id).bind p.update_supported_interfaces

/-- After each of the updates the proxy mimics the object as it was read for it. -/
def MimicsThroughout : Vst3PluginProxy → List Reading → Prop
  | _, [] => True
  | p, r :: rs => ∃ q, update B instance_id p r = some q ∧ Mimics q r.object ∧
      MimicsThroughout q rs

/-- The flag that is not read happened to be right. -/
def Reading.FlagMatches (r : Reading) : Prop :=
  r.uninitialized = r.object .noteExpressionPhysicalUIMapping

theorem receive_eq (r : Reading) :
    r.receive B instance_id = some (.ofObject r.object instance_id r.uninitialized) := by
  simp [Reading.receive, Codec.transfer_eq]

theorem mimics_ofArgs_iff (r : Reading) :
    Mimics (ofArgs (.ofObject r.object instance_id r.uninitialized)) r.object ↔ r.FlagMatches := by
  have hquery : ∀ i, ((ofArgs (.ofObject r.object instance_id r.uninitialized)).queryInterface
      (.of i)).isSome = if i = .noteExpressionPhysicalUIMapping then r.uninitialized
        else r.object i := by
    intro i
    rw [queryInterface_isSome, supported_ofArgs, ConstructArgs.args_ofObject]
    split_ifs <;> rfl
  constructor
  · intro h
    have hi := h .noteExpressionPhysicalUIMapping
    rw [hquery, if_pos rfl] at hi
    exact Bool.eq_iff_iff.mpr hi
  · intro h i
    rw [hquery]
    by_cases hi : i = .noteExpressionPhysicalUIMapping
    · rw [if_pos hi, hi, h]
    · rw [if_neg hi]

theorem mimicsThroughout_iff (rs : List Reading) (p : Vst3PluginProxy)
    (hp : p.arguments_.instance_id = instance_id) :
    MimicsThroughout B instance_id p rs ↔ ∀ r ∈ rs, r.FlagMatches := by
  induction rs generalizing p with
  | nil => simp [MimicsThroughout]
  | cons r rs ih =>
    have hq : update B instance_id p r =
        some (ofArgs (.ofObject r.object instance_id r.uninitialized)) := by
      rw [update, receive_eq, Option.bind_some, update_eq_some]
      exact ⟨hp, rfl⟩
    simp only [MimicsThroughout, hq, Option.some.injEq, exists_eq_left', mimics_ofArgs_iff,
      List.forall_mem_cons]
    rw [ih _ rfl]

/-- The proxy mimics the object from its construction on, through every sequence of updates,
exactly when the one flag that is never read is right each time by chance. -/
theorem proxy_mimics_iff (B : Bitsery) (instance_id : UInt64) (r : Reading)
    (updates : List Reading) :
    (∃ p, construct B instance_id r = some p ∧ Mimics p r.object ∧
      MimicsThroughout B instance_id p updates) ↔ ∀ r' ∈ r :: updates, r'.FlagMatches := by
  have hp : construct B instance_id r =
      some (ofArgs (.ofObject r.object instance_id r.uninitialized)) := by
    rw [construct, receive_eq, Option.map_some]
  simp only [hp, Option.some.injEq, exists_eq_left', mimics_ofArgs_iff, List.forall_mem_cons]
  rw [mimicsThroughout_iff B instance_id updates _ rfl]

/-- An object that has the interface `INoteExpressionPhysicalUIMapping` only. -/
def physicalUIMappingObject : Object := fun i => i == .noteExpressionPhysicalUIMapping

/-- Memory that held zero: the proxy does not offer the interface that the object has. -/
theorem proxy_misses_physicalUIMapping :
    ¬ ∀ (B : Bitsery) (instance_id : UInt64) (r : Reading) (updates : List Reading),
      ∃ p, construct B instance_id r = some p ∧ Mimics p r.object ∧
        MimicsThroughout B instance_id p updates := by
  intro h
  obtain ⟨p, hp, hmimics, _⟩ := h Bitsery.default 0
    ⟨physicalUIMappingObject, false, .ofObject physicalUIMappingObject 0 false⟩ []
  rw [construct, receive_eq, Option.map_some, Option.some.injEq] at hp
  subst hp
  exact Bool.false_ne_true ((mimics_ofArgs_iff 0 _).mp hmimics)

end Vst3PluginProxy
end Vst3
