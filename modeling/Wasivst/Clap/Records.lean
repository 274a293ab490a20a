import Mathlib.Data.UInt
import Wasivst.Lib.CString
import Wasivst.Mirror

/-!
# CLAP structs that hold strings

`ParamInfo`, `AudioPortInfo`, `AudioPortsConfig`, `NotePortInfo` and `NoteName` of
`serialization/clap/ext`. A struct of the plugin is copied into an object of the bridge, sent, and
written to a struct of the host. A plugin fills its buffers up to the terminators only. Signed and
floating-point fields are their bits.
-/

set_option autoImplicit false

namespace Clap
open InPlace CString

/-- What the CLAP headers define. -/
structure Headers where
  CLAP_NAME_SIZE : Nat
  CLAP_PATH_SIZE : Nat
  CLAP_PORT_MONO : Chars UInt8
  CLAP_PORT_STEREO : Chars UInt8
  name_size_pos : 0 < CLAP_NAME_SIZE
  path_size_pos : 0 < CLAP_PATH_SIZE
  name_size_le : CLAP_NAME_SIZE ≤ 4096
  path_size_le : CLAP_PATH_SIZE ≤ 4096

variable (B : Bitsery) (H : Headers)

theorem text_fits {n : Nat} (hn : n ≤ 4096) {b : Vector UInt8 n} {s : List UInt8}
    (h : text b = some s) : (B.text1b 4096).fits s = true := by
  have hmax : 4096 < 2 ^ 30 := by omega
  have hlen := length_lt_of_text h
  rw [B.text1b_fits hmax, decide_eq_true_eq]
  omega

/-- A record with one string can be sent if that string ends. -/
theorem terminated_iff {R : Type} {serialize : Codec R} {b : Vector UInt8 H.CLAP_NAME_SIZE}
    {record : List UInt8 → R}
    (h : ∀ name, serialize.fits (record name) = (B.text1b 4096).fits name) :
    0 ∈ b.toList ↔ ∃ p, (text b).map record = some p ∧ serialize.fits p := by
  rw [← text_isSome]
  constructor
  · intro hb
    obtain ⟨name, hname⟩ := Option.isSome_iff_exists.mp hb
    refine ⟨record name, by rw [hname]; rfl, ?_⟩
    rw [h, text_fits B H.name_size_le hname]
  · intro hb
    obtain ⟨p, hp, _⟩ := hb
    obtain ⟨name, hname, _⟩ := Option.map_eq_some_iff.mp hp
    exact Option.isSome_of_eq_some hname

/-! ## Parameters -/

structure ClapParamInfo where
  id : UInt32
  flags : UInt32
  cookie : UInt64
  name : Vector UInt8 H.CLAP_NAME_SIZE
  module : Vector UInt8 H.CLAP_PATH_SIZE
  min_value : UInt64
  max_value : UInt64
  default_value : UInt64

structure ParamInfo where
  id : UInt32
  flags : UInt32
  cookie : UInt64
  name : List UInt8
  module : List UInt8
  min_value : UInt64
  max_value : UInt64
  default_value : UInt64

def ClapParamInfo.zero : ClapParamInfo H :=
  ⟨0, 0, 0, Vector.replicate _ 0, Vector.replicate _ 0, 0, 0, 0⟩

namespace ParamInfo

def ofNative (original : ClapParamInfo H) : Option ParamInfo := do
  let name ← text original.name
  let module ← text original.module
  some
    { id := original.id
      flags := original.flags
      cookie := original.cookie
      name := name
      module := module
      min_value := original.min_value
      max_value := original.max_value
      default_value := original.default_value }

def serialize : Codec ParamInfo :=
  .record
    [.field (·.id) (fun p v => { p with id := v }) B.value4b,
     .field (·.flags) (fun p v => { p with flags := v }) B.value4b,
     .field (·.cookie) (fun p v => { p with cookie := v }) B.value8b,
     .field (·.name) (fun p v => { p with name := v }) (B.text1b 4096),
     .field (·.module) (fun p v => { p with module := v }) (B.text1b 4096),
     .field (·.min_value) (fun p v => { p with min_value := v }) B.value8b,
     .field (·.max_value) (fun p v => { p with max_value := v }) B.value8b,
     .field (·.default_value) (fun p v => { p with default_value := v }) B.value8b]

/-- The struct is reset before it is written to. -/
def reconstruct (p : ParamInfo) (_port_info : ClapParamInfo H) : ClapParamInfo H :=
  let port_info := ClapParamInfo.zero H
  { id := p.id
    flags := p.flags
    cookie := p.cookie
    name := copy port_info.name p.name
    module := copy port_info.module p.module
    min_value := p.min_value
    max_value := p.max_value
    default_value := p.default_value }

/-- `port_info` is the struct that is written to. -/
def mirror (port_info : ClapParamInfo H) : Mirror (ClapParamInfo H) ParamInfo where
  ofNative := ofNative H
  serialize := serialize B
  reconstruct p := reconstruct H p port_info

def Terminated (original : ClapParamInfo H) : Prop :=
  0 ∈ original.name.toList ∧ 0 ∈ original.module.toList

def restored (original : ClapParamInfo H) : ClapParamInfo H :=
  { original with name := cleared original.name, module := cleared original.module }

theorem ofNative_eq_some {original : ClapParamInfo H} {p : ParamInfo}
    (h : ofNative H original = some p) : ∃ name module, text original.name = some name ∧
      text original.module = some module ∧ p = ⟨original.id, original.flags, original.cookie, name,
        module, original.min_value, original.max_value, original.default_value⟩ := by
  obtain ⟨name, hname, hrest⟩ := Option.bind_eq_some_iff.mp h
  obtain ⟨module, hmodule, hp⟩ := Option.bind_eq_some_iff.mp hrest
  exact ⟨name, module, hname, hmodule, (Option.some.inj hp).symm⟩

theorem sendable_iff (native : ClapParamInfo H) :
    Terminated H native ↔ ∃ p, ofNative H native = some p ∧ (serialize B).fits p := by
  constructor
  · intro h
    obtain ⟨name, hname⟩ := Option.isSome_iff_exists.mp (text_isSome.mpr h.1)
    obtain ⟨module, hmodule⟩ := Option.isSome_iff_exists.mp (text_isSome.mpr h.2)
    refine ⟨_, by rw [ofNative, hname, hmodule]; rfl, ?_⟩
    simp [serialize, text_fits B H.name_size_le hname, text_fits B H.path_size_le hmodule]
  · intro h
    obtain ⟨p, hp, _⟩ := h
    obtain ⟨name, module, hname, hmodule, _⟩ := ofNative_eq_some H hp
    exact ⟨text_isSome.mp (Option.isSome_of_eq_some hname),
      text_isSome.mp (Option.isSome_of_eq_some hmodule)⟩

theorem restores (port_info : ClapParamInfo H) :
    (mirror B H port_info).Restores (Terminated H) (restored H) := by
  constructor
  case overwrites =>
    intro old p
    simp [mirror, serialize]
  case sendable_iff => exact sendable_iff B H
  case reconstruct =>
    intro native p hp
    obtain ⟨name, module, hname, hmodule, rfl⟩ := ofNative_eq_some H hp
    simp only [mirror, reconstruct, restored, ClapParamInfo.zero, copy_text hname,
      copy_text hmodule]

theorem ofNative_restored (native : ClapParamInfo H) :
    ofNative H (restored H native) = ofNative H native := by
  simp only [ofNative, restored, text_cleared]

theorem reconstruct_terminated (p : ParamInfo) (port_info : ClapParamInfo H) :
    Terminated H (reconstruct H p port_info) :=
  ⟨zero_mem_copy H.name_size_pos _ _, zero_mem_copy H.path_size_pos _ _⟩

end ParamInfo

/-! ## Audio ports -/

/-- An `enum class` over `uint32_t`. -/
abbrev AudioPortType := UInt32

namespace AudioPortType

/-- A null pointer or unrecognized value. -/
def Unknown : AudioPortType := 0

def Mono : AudioPortType := 1

def Stereo : AudioPortType := 2

end AudioPortType

def parse_audio_port_type : Option (Chars UInt8) → AudioPortType
  | none => .Unknown
  | some port_type =>
    if port_type = H.CLAP_PORT_MONO then .Mono
    else if port_type = H.CLAP_PORT_STEREO then .Stereo
    else .Unknown

def audio_port_type_to_string (port_type : AudioPortType) : Option (Chars UInt8) :=
  if port_type = .Mono then some H.CLAP_PORT_MONO
  else if port_type = .Stereo then some H.CLAP_PORT_STEREO
  else none

/-- Other types become null pointers. -/
def known : Option (Chars UInt8) → Option (Chars UInt8)
  | none => none
  | some port_type =>
    if port_type = H.CLAP_PORT_MONO ∨ port_type = H.CLAP_PORT_STEREO then some port_type else none

theorem to_string_parse (port_type : Option (Chars UInt8)) :
    audio_port_type_to_string H (parse_audio_port_type H port_type) = known H port_type := by
  cases port_type with
  | none => rfl
  | some port_type =>
    by_cases hmono : port_type = H.CLAP_PORT_MONO
    · simp [parse_audio_port_type, audio_port_type_to_string, known, hmono]
    · by_cases hstereo : port_type = H.CLAP_PORT_STEREO
      · subst hstereo
        simp only [parse_audio_port_type, if_neg hmono, if_pos, known]
        simp [audio_port_type_to_string, AudioPortType.Stereo, AudioPortType.Mono]
      · simp [parse_audio_port_type, known, hmono, hstereo, audio_port_type_to_string,
          AudioPortType.Unknown, AudioPortType.Mono, AudioPortType.Stereo]

theorem parse_known (port_type : Option (Chars UInt8)) :
    parse_audio_port_type H (known H port_type) = parse_audio_port_type H port_type := by
  cases port_type with
  | none => rfl
  | some port_type =>
    by_cases hknown : port_type = H.CLAP_PORT_MONO ∨ port_type = H.CLAP_PORT_STEREO
    · simp [known, hknown]
    · rw [known, if_neg hknown]
      rw [not_or] at hknown
      simp [parse_audio_port_type, hknown.1, hknown.2]

structure ClapAudioPortInfo where
  id : UInt32
  name : Vector UInt8 H.CLAP_NAME_SIZE
  flags : UInt32
  channel_count : UInt32
  port_type : Option (Chars UInt8)
  in_place_pair : UInt32

structure AudioPortInfo where
  id : UInt32
  name : List UInt8
  flags : UInt32
  channel_count : UInt32
  port_type : AudioPortType
  in_place_pair : UInt32

def ClapAudioPortInfo.zero : ClapAudioPortInfo H :=
  ⟨0, Vector.replicate _ 0, 0, 0, none, 0⟩

namespace AudioPortInfo

def ofNative (original : ClapAudioPortInfo H) : Option AudioPortInfo :=
  (text original.name).map fun name =>
    { id := original.id
      name := name
      flags := original.flags
      channel_count := original.channel_count
      port_type := parse_audio_port_type H original.port_type
      in_place_pair := original.in_place_pair }

def serialize : Codec AudioPortInfo :=
  .record
    [.field (·.id) (fun p v => { p with id := v }) B.value4b,
     .field (·.name) (fun p v => { p with name := v }) (B.text1b 4096),
     .field (·.flags) (fun p v => { p with flags := v }) B.value4b,
     .field (·.channel_count) (fun p v => { p with channel_count := v }) B.value4b,
     .field (·.port_type) (fun p v => { p with port_type := v }) B.value4b,
     .field (·.in_place_pair) (fun p v => { p with in_place_pair := v }) B.value4b]

def reconstruct (p : AudioPortInfo) (_port_info : ClapAudioPortInfo H) : ClapAudioPortInfo H :=
  let port_info := ClapAudioPortInfo.zero H
  { id := p.id
    name := copy port_info.name p.name
    flags := p.flags
    channel_count := p.channel_count
    port_type := audio_port_type_to_string H p.port_type
    in_place_pair := p.in_place_pair }

/-- `port_info` is the struct that is written to. -/
def mirror (port_info : ClapAudioPortInfo H) : Mirror (ClapAudioPortInfo H) AudioPortInfo where
  ofNative := ofNative H
  serialize := serialize B
  reconstruct p := reconstruct H p port_info

def Terminated (original : ClapAudioPortInfo H) : Prop := 0 ∈ original.name.toList

def restored (original : ClapAudioPortInfo H) : ClapAudioPortInfo H :=
  { original with
    name := cleared original.name
    port_type := known H original.port_type }

theorem restores (port_info : ClapAudioPortInfo H) :
    (mirror B H port_info).Restores (Terminated H) (restored H) := by
  constructor
  case overwrites =>
    intro old p
    simp [mirror, serialize]
  case sendable_iff =>
    intro native
    apply terminated_iff B H
    intro name
    simp [mirror, serialize]
  case reconstruct =>
    intro native p hp
    obtain ⟨name, hname, rfl⟩ := Option.map_eq_some_iff.mp hp
    simp only [mirror, reconstruct, restored, ClapAudioPortInfo.zero, copy_text hname,
      to_string_parse]

theorem ofNative_restored (native : ClapAudioPortInfo H) :
    ofNative H (restored H native) = ofNative H native := by
  simp only [ofNative, restored, text_cleared, parse_known]

theorem reconstruct_terminated (p : AudioPortInfo) (port_info : ClapAudioPortInfo H) :
    Terminated H (reconstruct H p port_info) := zero_mem_copy H.name_size_pos _ _

end AudioPortInfo

structure ClapAudioPortsConfig where
  id : UInt32
  name : Vector UInt8 H.CLAP_NAME_SIZE
  input_port_count : UInt32
  output_port_count : UInt32
  has_main_input : Bool
  main_input_channel_count : UInt32
  main_input_port_type : Option (Chars UInt8)
  has_main_output : Bool
  main_output_channel_count : UInt32
  main_output_port_type : Option (Chars UInt8)

structure AudioPortsConfig where
  id : UInt32
  name : List UInt8
  input_port_count : UInt32
  output_port_count : UInt32
  has_main_input : Bool
  main_input_channel_count : UInt32
  main_input_port_type : AudioPortType
  has_main_output : Bool
  main_output_channel_count : UInt32
  main_output_port_type : AudioPortType

def ClapAudioPortsConfig.zero : ClapAudioPortsConfig H :=
  ⟨0, Vector.replicate _ 0, 0, 0, false, 0, none, false, 0, none⟩

namespace AudioPortsConfig

def ofNative (original : ClapAudioPortsConfig H) : Option AudioPortsConfig :=
  (text original.name).map fun name =>
    { id := original.id
      name := name
      input_port_count := original.input_port_count
      output_port_count := original.output_port_count
      has_main_input := original.has_main_input
      main_input_channel_count := original.main_input_channel_count
      main_input_port_type := parse_audio_port_type H original.main_input_port_type
      has_main_output := original.has_main_output
      main_output_channel_count := original.main_output_channel_count
      main_output_port_type := parse_audio_port_type H original.main_output_port_type }

def serialize : Codec AudioPortsConfig :=
  .record
    [.field (·.id) (fun p v => { p with id := v }) B.value4b,
     .field (·.name) (fun p v => { p with name := v }) (B.text1b 4096),
     .field (·.input_port_count) (fun p v => { p with input_port_count := v }) B.value4b,
     .field (·.output_port_count) (fun p v => { p with output_port_count := v }) B.value4b,
     .field (·.has_main_input) (fun p v => { p with has_main_input := v }) B.bool1b,
     .field (·.main_input_channel_count) (fun p v => { p with main_input_channel_count := v })
       B.value4b,
     .field (·.main_input_port_type) (fun p v => { p with main_input_port_type := v }) B.value4b,
     .field (·.has_main_output) (fun p v => { p with has_main_output := v }) B.bool1b,
     .field (·.main_output_channel_count) (fun p v => { p with main_output_channel_count := v })
       B.value4b,
     .field (·.main_output_port_type) (fun p v => { p with main_output_port_type := v }) B.value4b]

def reconstruct (p : AudioPortsConfig) (_config : ClapAudioPortsConfig H) :
    ClapAudioPortsConfig H :=
  let config := ClapAudioPortsConfig.zero H
  { id := p.id
    name := copy config.name p.name
    input_port_count := p.input_port_count
    output_port_count := p.output_port_count
    has_main_input := p.has_main_input
    main_input_channel_count := p.main_input_channel_count
    main_input_port_type := audio_port_type_to_string H p.main_input_port_type
    has_main_output := p.has_main_output
    main_output_channel_count := p.main_output_channel_count
    main_output_port_type := audio_port_type_to_string H p.main_output_port_type }

/-- `config` is the struct that is written to. -/
def mirror (config : ClapAudioPortsConfig H) :
    Mirror (ClapAudioPortsConfig H) AudioPortsConfig where
  ofNative := ofNative H
  serialize := serialize B
  reconstruct p := reconstruct H p config

def Terminated (original : ClapAudioPortsConfig H) : Prop := 0 ∈ original.name.toList

def restored (original : ClapAudioPortsConfig H) : ClapAudioPortsConfig H :=
  { original with
    name := cleared original.name
    main_input_port_type := known H original.main_input_port_type
    main_output_port_type := known H original.main_output_port_type }

theorem restores (config : ClapAudioPortsConfig H) :
    (mirror B H config).Restores (Terminated H) (restored H) := by
  constructor
  case overwrites =>
    intro old p
    simp [mirror, serialize]
  case sendable_iff =>
    intro native
    apply terminated_iff B H
    intro name
    simp [mirror, serialize]
  case reconstruct =>
    intro native p hp
    obtain ⟨name, hname, rfl⟩ := Option.map_eq_some_iff.mp hp
    simp only [mirror, reconstruct, restored, ClapAudioPortsConfig.zero, copy_text hname,
      to_string_parse]

theorem ofNative_restored (native : ClapAudioPortsConfig H) :
    ofNative H (restored H native) = ofNative H native := by
  simp only [ofNative, restored, text_cleared, parse_known]

theorem reconstruct_terminated (p : AudioPortsConfig) (config : ClapAudioPortsConfig H) :
    Terminated H (reconstruct H p config) := zero_mem_copy H.name_size_pos _ _

end AudioPortsConfig

/-! ## Notes -/

structure ClapNotePortInfo where
  id : UInt32
  supported_dialects : UInt32
  preferred_dialect : UInt32
  name : Vector UInt8 H.CLAP_NAME_SIZE

structure NotePortInfo where
  id : UInt32
  supported_dialects : UInt32
  preferred_dialect : UInt32
  name : List UInt8

def ClapNotePortInfo.zero : ClapNotePortInfo H :=
  ⟨0, 0, 0, Vector.replicate _ 0⟩

namespace NotePortInfo

def ofNative (original : ClapNotePortInfo H) : Option NotePortInfo :=
  (text original.name).map fun name =>
    { id := original.id
      supported_dialects := original.supported_dialects
      preferred_dialect := original.preferred_dialect
      name := name }

def serialize : Codec NotePortInfo :=
  .record
    [.field (·.id) (fun p v => { p with id := v }) B.value4b,
     .field (·.supported_dialects) (fun p v => { p with supported_dialects := v }) B.value4b,
     .field (·.preferred_dialect) (fun p v => { p with preferred_dialect := v }) B.value4b,
     .field (·.name) (fun p v => { p with name := v }) (B.text1b 4096)]

def reconstruct (p : NotePortInfo) (_port_info : ClapNotePortInfo H) : ClapNotePortInfo H :=
  let port_info := ClapNotePortInfo.zero H
  { id := p.id
    supported_dialects := p.supported_dialects
    preferred_dialect := p.preferred_dialect
    name := copy port_info.name p.name }

/-- `port_info` is the struct that is written to. -/
def mirror (port_info : ClapNotePortInfo H) : Mirror (ClapNotePortInfo H) NotePortInfo where
  ofNative := ofNative H
  serialize := serialize B
  reconstruct p := reconstruct H p port_info

def Terminated (original : ClapNotePortInfo H) : Prop := 0 ∈ original.name.toList

def restored (original : ClapNotePortInfo H) : ClapNotePortInfo H :=
  { original with name := cleared original.name }

theorem restores (port_info : ClapNotePortInfo H) :
    (mirror B H port_info).Restores (Terminated H) (restored H) := by
  constructor
  case overwrites =>
    intro old p
    simp [mirror, serialize]
  case sendable_iff =>
    intro native
    apply terminated_iff B H
    intro name
    simp [mirror, serialize]
  case reconstruct =>
    intro native p hp
    obtain ⟨name, hname, rfl⟩ := Option.map_eq_some_iff.mp hp
    simp only [mirror, reconstruct, restored, ClapNotePortInfo.zero, copy_text hname]

theorem ofNative_restored (native : ClapNotePortInfo H) :
    ofNative H (restored H native) = ofNative H native := by
  simp only [ofNative, restored, text_cleared]

theorem reconstruct_terminated (p : NotePortInfo) (port_info : ClapNotePortInfo H) :
    Terminated H (reconstruct H p port_info) := zero_mem_copy H.name_size_pos _ _

end NotePortInfo

structure ClapNoteName where
  name : Vector UInt8 H.CLAP_NAME_SIZE
  port : UInt16
  key : UInt16
  channel : UInt16

structure NoteName where
  name : List UInt8
  port : UInt16
  key : UInt16
  channel : UInt16

def ClapNoteName.zero : ClapNoteName H :=
  ⟨Vector.replicate _ 0, 0, 0, 0⟩

namespace NoteName

def ofNative (original : ClapNoteName H) : Option NoteName :=
  (text original.name).map fun name =>
    { name := name
      port := original.port
      key := original.key
      channel := original.channel }

def serialize : Codec NoteName :=
  .record
    [.field (·.name) (fun p v => { p with name := v }) (B.text1b 4096),
     .field (·.port) (fun p v => { p with port := v }) B.value2b,
     .field (·.key) (fun p v => { p with key := v }) B.value2b,
     .field (·.channel) (fun p v => { p with channel := v }) B.value2b]

def reconstruct (p : NoteName) (_note_name : ClapNoteName H) : ClapNoteName H :=
  let note_name := ClapNoteName.zero H
  { name := copy note_name.name p.name
    port := p.port
    key := p.key
    channel := p.channel }

/-- `note_name` is the struct that is written to. -/
def mirror (note_name : ClapNoteName H) : Mirror (ClapNoteName H) NoteName where
  ofNative := ofNative H
  serialize := serialize B
  reconstruct p := reconstruct H p note_name

def Terminated (original : ClapNoteName H) : Prop := 0 ∈ original.name.toList

def restored (original : ClapNoteName H) : ClapNoteName H :=
  { original with name := cleared original.name }

theorem restores (note_name : ClapNoteName H) :
    (mirror B H note_name).Restores (Terminated H) (restored H) := by
  constructor
  case overwrites =>
    intro old p
    simp [mirror, serialize]
  case sendable_iff =>
    intro native
    apply terminated_iff B H
    intro name
    simp [mirror, serialize]
  case reconstruct =>
    intro native p hp
    obtain ⟨name, hname, rfl⟩ := Option.map_eq_some_iff.mp hp
    simp only [mirror, reconstruct, restored, ClapNoteName.zero, copy_text hname]

theorem ofNative_restored (native : ClapNoteName H) :
    ofNative H (restored H native) = ofNative H native := by
  simp only [ofNative, restored, text_cleared]

theorem reconstruct_terminated (p : NoteName) (note_name : ClapNoteName H) :
    Terminated H (reconstruct H p note_name) := zero_mem_copy H.name_size_pos _ _

end NoteName

/-! ## Infos across the bridge -/

/-- The infos that are asked for one at a time. -/
inductive Kind where
  | audioPortInfo
  | audioPortsConfig
  | notePortInfo
  | noteName

namespace Kind

def Native : Kind → Type
  | audioPortInfo => ClapAudioPortInfo H
  | audioPortsConfig => ClapAudioPortsConfig H
  | notePortInfo => ClapNotePortInfo H
  | noteName => ClapNoteName H

def Record : Kind → Type
  | audioPortInfo => AudioPortInfo
  | audioPortsConfig => AudioPortsConfig
  | notePortInfo => NotePortInfo
  | noteName => NoteName

def mirror : (k : Kind) → k.Native H → Mirror (k.Native H) k.Record
  | audioPortInfo => AudioPortInfo.mirror B H
  | audioPortsConfig => AudioPortsConfig.mirror B H
  | notePortInfo => NotePortInfo.mirror B H
  | noteName => NoteName.mirror B H

def Terminated : (k : Kind) → k.Native H → Prop
  | audioPortInfo => AudioPortInfo.Terminated H
  | audioPortsConfig => AudioPortsConfig.Terminated H
  | notePortInfo => NotePortInfo.Terminated H
  | noteName => NoteName.Terminated H

def restored : (k : Kind) → k.Native H → k.Native H
  | audioPortInfo => AudioPortInfo.restored H
  | audioPortsConfig => AudioPortsConfig.restored H
  | notePortInfo => NotePortInfo.restored H
  | noteName => NoteName.restored H

theorem restores (k : Kind) (host : k.Native H) :
    (k.mirror B H host).Restores (k.Terminated H) (k.restored H) := by
  cases k with
  | audioPortInfo => exact AudioPortInfo.restores B H host
  | audioPortsConfig => exact AudioPortsConfig.restores B H host
  | notePortInfo => exact NotePortInfo.restores B H host
  | noteName => exact NoteName.restores B H host

theorem ofNative_restored (k : Kind) (host native : k.Native H) :
    (k.mirror B H host).ofNative (k.restored H native) = (k.mirror B H host).ofNative native := by
  cases k with
  | audioPortInfo => exact AudioPortInfo.ofNative_restored H native
  | audioPortsConfig => exact AudioPortsConfig.ofNative_restored H native
  | notePortInfo => exact NotePortInfo.ofNative_restored H native
  | noteName => exact NoteName.ofNative_restored H native

theorem reconstruct_terminated (k : Kind) (host : k.Native H) (record : k.Record) :
    k.Terminated H ((k.mirror B H host).reconstruct record) := by
  cases k with
  | audioPortInfo => exact AudioPortInfo.reconstruct_terminated H record host
  | audioPortsConfig => exact AudioPortsConfig.reconstruct_terminated H record host
  | notePortInfo => exact NotePortInfo.reconstruct_terminated H record host
  | noteName => exact NoteName.reconstruct_terminated H record host

/-- `GetResponse` -/
def get (k : Kind) (fresh : k.Record) (host : k.Native H) :
    Mirror (Option (k.Native H)) (Option k.Record) := (k.mirror B H host).optional B fresh

end Kind

/-- `GetInfosResponse` -/
def getInfos (fresh : ParamInfo) (host : ClapParamInfo H) :
    Mirror (List (Option (ClapParamInfo H))) (List (Option ParamInfo)) :=
  ((ParamInfo.mirror B H host).optional B fresh).list B (2 ^ 16) none

/-- Whatever the response object and the struct of the host held, the host gets what the plugin
has filled in, at every index, with nothing but zeros behind the strings. Read again, that is the
same info; and no record leaves the host with a string without an end. -/
theorem infos_bridged (fresh : ParamInfo) (old : List (Option ParamInfo)) (host : ClapParamInfo H)
    (natives : List (Option (ClapParamInfo H))) :
    (∀ results, (getInfos B H fresh host).bridge old natives = some results ↔
      (natives.length ≤ 2 ^ 16 ∧ ∀ native ∈ natives, ∀ x ∈ native, ParamInfo.Terminated H x) ∧
        results = natives.map (Option.map (ParamInfo.restored H))) ∧
      (∀ x, ParamInfo.ofNative H (ParamInfo.restored H x) = ParamInfo.ofNative H x) ∧
      ∀ record, ParamInfo.Terminated H (ParamInfo.reconstruct H record host) := by
  have hmax : 2 ^ 16 < 2 ^ 30 := Nat.pow_lt_pow_right (by omega) (by omega)
  have h := ((ParamInfo.restores B H host).optional B fresh).list B none hmax
  exact ⟨fun _ => h.bridge_iff, ParamInfo.ofNative_restored H,
    fun record => ParamInfo.reconstruct_terminated H record host⟩

def clapHeaders : Headers where
  CLAP_NAME_SIZE := 256
  CLAP_PATH_SIZE := 1024
  CLAP_PORT_MONO := ⟨[109, 111, 110, 111], by decide⟩
  CLAP_PORT_STEREO := ⟨[115, 116, 101, 114, 101, 111], by decide⟩
  name_size_pos := by decide
  path_size_pos := by decide
  name_size_le := by decide
  path_size_le := by decide

/-- A parameter, with what is behind the strings in their buffers. -/
def gain (behind : UInt8) : ClapParamInfo clapHeaders where
  id := 3
  flags := 1024
  cookie := 140737488355328
  name := copy (Vector.replicate 256 behind) [71, 97, 105, 110]
  module := copy (Vector.replicate 1024 behind) [79, 117, 116, 47, 77, 105, 120]
  min_value := 0
  max_value := 4607182418800017408
  default_value := 4602678819172646912

theorem restored_gain (behind : UInt8) : ParamInfo.restored clapHeaders (gain behind) = gain 0 := by
  have hname : cleared (gain behind).name = (gain 0).name :=
    cleared_copy (by decide) (by decide) _
  have hmodule : cleared (gain behind).module = (gain 0).module :=
    cleared_copy (by decide) (by decide) _
  unfold ParamInfo.restored
  rw [hname, hmodule]
  rfl

/-- The second index has no parameter, and the host's struct held another info. -/
theorem gain_bridged : (getInfos .default clapHeaders ⟨0, 0, 0, [], [], 0, 0, 0⟩ (gain 1)).bridge
    [none, some ⟨9, 0, 0, [88], [], 0, 0, 0⟩] [some (gain 255), none] =
      some [some (gain 0), none] := by
  have hbridged := infos_bridged .default clapHeaders ⟨0, 0, 0, [], [], 0, 0, 0⟩
    [none, some ⟨9, 0, 0, [88], [], 0, 0, 0⟩] (gain 1) [some (gain 255), none]
  have hends : ParamInfo.Terminated clapHeaders (gain 255) :=
    ⟨zero_mem_copy (by decide) _ _, zero_mem_copy (by decide) _ _⟩
  refine (hbridged.1 _).mpr ⟨⟨by decide, ?_⟩, ?_⟩
  · simpa using hends
  · simp [restored_gain]

/-- The same of an info that is asked for alone. -/
theorem info_bridged (k : Kind) (fresh : k.Record) (old : Option k.Record) (host : k.Native H)
    (native : Option (k.Native H)) :
    (∀ result, (k.get B H fresh host).bridge old native = some result ↔
      (∀ x ∈ native, k.Terminated H x) ∧ result = native.map (k.restored H)) ∧
      (∀ x, (k.mirror B H host).ofNative (k.restored H x) = (k.mirror B H host).ofNative x) ∧
      ∀ record, k.Terminated H ((k.mirror B H host).reconstruct record) := by
  have h := (k.restores B H host).optional B fresh
  exact ⟨fun _ => h.bridge_iff, k.ofNative_restored B H host, k.reconstruct_terminated B H host⟩

end Clap
