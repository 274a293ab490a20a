import Wasivst.Bitsery

/-!
# VST3 events

`YaEvent` and `YaEventList` of `serialization/vst3/event-list.{h,cpp}`. Integers and floating
point numbers are kept as words. A host's pointer with a length is the list of what it shows.
-/

set_option autoImplicit false

namespace Vst3
open InPlace

structure NoteOnEvent where
  channel : UInt16
  pitch : UInt16
  tuning : UInt32
  velocity : UInt32
  length : UInt32
  noteId : UInt32
  deriving DecidableEq, Inhabited

structure NoteOffEvent where
  channel : UInt16
  pitch : UInt16
  velocity : UInt32
  noteId : UInt32
  tuning : UInt32
  deriving DecidableEq, Inhabited

structure DataEvent where
  type : UInt32
  bytes : List UInt8
  deriving DecidableEq

structure PolyPressureEvent where
  channel : UInt16
  pitch : UInt16
  pressure : UInt32
  noteId : UInt32
  deriving DecidableEq, Inhabited

structure NoteExpressionValueEvent where
  typeId : UInt32
  noteId : UInt32
  value : UInt64
  deriving DecidableEq, Inhabited

structure NoteExpressionTextEvent where
  typeId : UInt32
  noteId : UInt32
  text : List UInt16
  deriving DecidableEq

structure ChordEvent where
  root : UInt16
  bassNote : UInt16
  mask : UInt16
  text : List UInt16
  deriving DecidableEq

structure ScaleEvent where
  root : UInt16
  mask : UInt16
  text : List UInt16
  deriving DecidableEq

structure LegacyMIDICCOutEvent where
  controlNumber : UInt8
  channel : UInt8
  value : UInt8
  value2 : UInt8
  deriving DecidableEq, Inhabited

/-- The type of an event with the member of the union that belongs to it. -/
inductive EventData
  | noteOn (event : NoteOnEvent)
  | noteOff (event : NoteOffEvent)
  | data (event : DataEvent)
  | polyPressure (event : PolyPressureEvent)
  | noteExpressionValue (event : NoteExpressionValueEvent)
  | noteExpressionText (event : NoteExpressionTextEvent)
  | chord (event : ChordEvent)
  | scale (event : ScaleEvent)
  | midiCCOut (event : LegacyMIDICCOutEvent)
  | unknown (type : UInt16)
  deriving DecidableEq

structure Event where
  busIndex : UInt32
  sampleOffset : UInt32
  ppqPosition : UInt64
  flags : UInt16
  data : EventData
  deriving DecidableEq

/-- The nine types of `YaEvent`. -/
def Event.Known (e : Event) : Prop := ∀ type, e.data ≠ .unknown type

/-! ## Wrappers of the events with heap pointers -/

structure YaDataEvent where
  type : UInt32
  buffer : List UInt8
  deriving DecidableEq

structure YaNoteExpressionTextEvent where
  type_id : UInt32
  note_id : UInt32
  text : List UInt16
  deriving DecidableEq

structure YaChordEvent where
  root : UInt16
  bass_note : UInt16
  mask : UInt16
  text : List UInt16
  deriving DecidableEq

structure YaScaleEvent where
  root : UInt16
  mask : UInt16
  text : List UInt16
  deriving DecidableEq

def YaDataEvent.ofEvent (event : DataEvent) : YaDataEvent := ⟨event.type, event.bytes⟩

/-- The size of the event is a `uint32`. -/
def YaDataEvent.get (e : YaDataEvent) : DataEvent :=
  ⟨e.type, e.buffer.take (UInt32.ofNat e.buffer.length).toNat⟩

def YaNoteExpressionTextEvent.ofEvent (event : NoteExpressionTextEvent) :
    YaNoteExpressionTextEvent := ⟨event.typeId, event.noteId, event.text⟩

/-- `textLen` is a `uint32`. -/
def YaNoteExpressionTextEvent.get (e : YaNoteExpressionTextEvent) : NoteExpressionTextEvent :=
  ⟨e.type_id, e.note_id, e.text.take (UInt32.ofNat e.text.length).toNat⟩

def YaChordEvent.ofEvent (event : ChordEvent) : YaChordEvent :=
  ⟨event.root, event.bassNote, event.mask, event.text⟩

/-- `textLen` is a `uint16`. -/
def YaChordEvent.get (e : YaChordEvent) : ChordEvent :=
  ⟨e.root, e.bass_note, e.mask, e.text.take (UInt16.ofNat e.text.length).toNat⟩

def YaScaleEvent.ofEvent (event : ScaleEvent) : YaScaleEvent :=
  ⟨event.root, event.mask, event.text⟩

/-- `textLen` is a `uint16`. -/
def YaScaleEvent.get (e : YaScaleEvent) : ScaleEvent :=
  ⟨e.root, e.mask, e.text.take (UInt16.ofNat e.text.length).toNat⟩

/-- Text and bytes within their maxima are not cut by the type of their length. -/
theorem take_uint32_length {α : Type} {xs : List α} (h : xs.length < 2 ^ 32) :
    xs.take (UInt32.ofNat xs.length).toNat = xs := by
  rw [UInt32.toNat_ofNat', Nat.mod_eq_of_lt h, List.take_length]

theorem take_uint16_length {α : Type} {xs : List α} (h : xs.length < 2 ^ 16) :
    xs.take (UInt16.ofNat xs.length).toNat = xs := by
  rw [UInt16.toNat_ofNat', Nat.mod_eq_of_lt h, List.take_length]

theorem YaDataEvent.get_ofEvent {event : DataEvent} (h : event.bytes.length ≤ 2 ^ 16) :
    (ofEvent event).get = event := by
  have hlen : event.bytes.length < 2 ^ 32 := by omega
  unfold ofEvent get
  rw [take_uint32_length hlen]

theorem YaNoteExpressionTextEvent.get_ofEvent {event : NoteExpressionTextEvent}
    (h : event.text.length ≤ 128) : (ofEvent event).get = event := by
  have hlen : event.text.length < 2 ^ 32 := by omega
  unfold ofEvent get
  rw [take_uint32_length hlen]

theorem YaChordEvent.get_ofEvent {event : ChordEvent} (h : event.text.length ≤ 128) :
    (ofEvent event).get = event := by
  have hlen : event.text.length < 2 ^ 16 := by omega
  unfold ofEvent get
  rw [take_uint16_length hlen]

theorem YaScaleEvent.get_ofEvent {event : ScaleEvent} (h : event.text.length ≤ 128) :
    (ofEvent event).get = event := by
  have hlen : event.text.length < 2 ^ 16 := by omega
  unfold ofEvent get
  rw [take_uint16_length hlen]

inductive YaEvent.Payload
  | noteOn (event : NoteOnEvent)
  | noteOff (event : NoteOffEvent)
  | data (event : YaDataEvent)
  | polyPressure (event : PolyPressureEvent)
  | noteExpressionValue (event : NoteExpressionValueEvent)
  | noteExpressionText (event : YaNoteExpressionTextEvent)
  | chord (event : YaChordEvent)
  | scale (event : YaScaleEvent)
  | midiCCOut (event : LegacyMIDICCOutEvent)
  deriving DecidableEq

structure YaEvent where
  bus_index : UInt32
  sample_offset : UInt32
  ppq_position : UInt64
  flags : UInt16
  payload : YaEvent.Payload
  deriving DecidableEq

namespace YaEvent

/-- A default constructed variant holds its first alternative. -/
def Payload.fresh : Payload := .noteOn default

def fresh : YaEvent := ⟨0, 0, 0, 0, .fresh⟩

/-- The switch on the event type. -/
def Payload.ofData : EventData → Payload
  | .noteOn event => .noteOn event
  | .noteOff event => .noteOff event
  | .data event => .data (.ofEvent event)
  | .polyPressure event => .polyPressure event
  | .noteExpressionValue event => .noteExpressionValue event
  | .noteExpressionText event => .noteExpressionText (.ofEvent event)
  | .chord event => .chord (.ofEvent event)
  | .scale event => .scale (.ofEvent event)
  | .midiCCOut event => .midiCCOut event
  | .unknown _ => .fresh

def ofEvent (event : Event) : YaEvent where
  bus_index := event.busIndex
  sample_offset := event.sampleOffset
  ppq_position := event.ppqPosition
  flags := event.flags
  payload := .ofData event.data

def Payload.get : Payload → EventData
  | .noteOn event => .noteOn event
  | .noteOff event => .noteOff event
  | .data event => .data event.get
  | .polyPressure event => .polyPressure event
  | .noteExpressionValue event => .noteExpressionValue event
  | .noteExpressionText event => .noteExpressionText event.get
  | .chord event => .chord event.get
  | .scale event => .scale event.get
  | .midiCCOut event => .midiCCOut event

def get (e : YaEvent) : Event where
  busIndex := e.bus_index
  sampleOffset := e.sample_offset
  ppqPosition := e.ppq_position
  flags := e.flags
  data := e.payload.get

/-- The declared maxima of the texts and of the bytes. -/
def Payload.Bounded : Payload → Prop
  | .data event => event.buffer.length ≤ 2 ^ 16
  | .noteExpressionText event => event.text.length ≤ 128
  | .chord event => event.text.length ≤ 128
  | .scale event => event.text.length ≤ 128
  | _ => True

instance (p : Payload) : Decidable p.Bounded := by
  cases p <;> unfold Payload.Bounded <;> infer_instance

theorem get_ofEvent {event : Event} (hknown : event.Known)
    (h : (ofEvent event).payload.Bounded) : (ofEvent event).get = event := by
  obtain ⟨bus, offset, ppq, flags, d⟩ := event
  have hget : (Payload.ofData d).get = d := by
    cases d with
    | data d => exact congrArg EventData.data (YaDataEvent.get_ofEvent h)
    | noteExpressionText d =>
      exact congrArg EventData.noteExpressionText (YaNoteExpressionTextEvent.get_ofEvent h)
    | chord d => exact congrArg EventData.chord (YaChordEvent.get_ofEvent h)
    | scale d => exact congrArg EventData.scale (YaScaleEvent.get_ofEvent h)
    | unknown type => exact absurd rfl (hknown type)
    | _ => rfl
  simp [ofEvent, get, hget]

end YaEvent

/-! ## Serialization -/

section Serialize
variable (B : Bitsery)

def NoteOnEvent.serialize : Codec NoteOnEvent :=
  .record
    [.field (·.channel) (fun e v => { e with channel := v }) B.value2b,
     .field (·.pitch) (fun e v => { e with pitch := v }) B.value2b,
     .field (·.tuning) (fun e v => { e with tuning := v }) B.value4b,
     .field (·.velocity) (fun e v => { e with velocity := v }) B.value4b,
     .field (·.length) (fun e v => { e with length := v }) B.value4b,
     .field (·.noteId) (fun e v => { e with noteId := v }) B.value4b]

@[simp] theorem NoteOnEvent.serialize_put (old e : NoteOnEvent) : (serialize B).put old e = e := by
  cases e
  rfl

@[simp] theorem NoteOnEvent.serialize_fits (e : NoteOnEvent) : (serialize B).fits e = true := by
  simp [serialize]

def NoteOffEvent.serialize : Codec NoteOffEvent :=
  .record
    [.field (·.channel) (fun e v => { e with channel := v }) B.value2b,
     .field (·.pitch) (fun e v => { e with pitch := v }) B.value2b,
     .field (·.velocity) (fun e v => { e with velocity := v }) B.value4b,
     .field (·.noteId) (fun e v => { e with noteId := v }) B.value4b,
     .field (·.tuning) (fun e v => { e with tuning := v }) B.value4b]

@[simp] theorem NoteOffEvent.serialize_put (old e : NoteOffEvent) :
    (serialize B).put old e = e := by
  cases e
  rfl

@[simp] theorem NoteOffEvent.serialize_fits (e : NoteOffEvent) : (serialize B).fits e = true := by
  simp [serialize]

def YaDataEvent.serialize : Codec YaDataEvent :=
  .record
    [.field (·.type) (fun e v => { e with type := v }) B.value4b,
     .field (·.buffer) (fun e v => { e with buffer := v }) (B.text1b (2 ^ 16))]

@[simp] theorem YaDataEvent.serialize_put (old e : YaDataEvent) : (serialize B).put old e = e := by
  simp [serialize]

@[simp] theorem YaDataEvent.serialize_fits (e : YaDataEvent) :
    (serialize B).fits e = decide (e.buffer.length ≤ 2 ^ 16) := by
  have htext : ∀ t, (B.text1b 65536).fits t = decide (t.length ≤ 65536) :=
    B.text1b_fits (by decide)
  simp [serialize, htext]

def PolyPressureEvent.serialize : Codec PolyPressureEvent :=
  .record
    [.field (·.channel) (fun e v => { e with channel := v }) B.value2b,
     .field (·.pitch) (fun e v => { e with pitch := v }) B.value2b,
     .field (·.pressure) (fun e v => { e with pressure := v }) B.value4b,
     .field (·.noteId) (fun e v => { e with noteId := v }) B.value4b]

@[simp] theorem PolyPressureEvent.serialize_put (old e : PolyPressureEvent) :
    (serialize B).put old e = e := by
  cases e
  rfl

@[simp] theorem PolyPressureEvent.serialize_fits (e : PolyPressureEvent) :
    (serialize B).fits e = true := by
  simp [serialize]

def NoteExpressionValueEvent.serialize : Codec NoteExpressionValueEvent :=
  .record
    [.field (·.typeId) (fun e v => { e with typeId := v }) B.value4b,
     .field (·.noteId) (fun e v => { e with noteId := v }) B.value4b,
     .field (·.value) (fun e v => { e with value := v }) B.value8b]

@[simp] theorem NoteExpressionValueEvent.serialize_put (old e : NoteExpressionValueEvent) :
    (serialize B).put old e = e := by
  cases e
  rfl

@[simp] theorem NoteExpressionValueEvent.serialize_fits (e : NoteExpressionValueEvent) :
    (serialize B).fits e = true := by
  simp [serialize]

def YaNoteExpressionTextEvent.serialize : Codec YaNoteExpressionTextEvent :=
  .record
    [.field (·.type_id) (fun e v => { e with type_id := v }) B.value4b,
     .field (·.note_id) (fun e v => { e with note_id := v }) B.value4b,
     .field (·.text) (fun e v => { e with text := v }) (B.text2b 128)]

@[simp] theorem YaNoteExpressionTextEvent.serialize_put (old e : YaNoteExpressionTextEvent) :
    (serialize B).put old e = e := by
  simp [serialize]

@[simp] theorem YaNoteExpressionTextEvent.serialize_fits (e : YaNoteExpressionTextEvent) :
    (serialize B).fits e = decide (e.text.length ≤ 128) := by
  have htext : ∀ t, (B.text2b 128).fits t = decide (t.length ≤ 128) := B.text2b_fits (by decide)
  simp [serialize, htext]

def YaChordEvent.serialize : Codec YaChordEvent :=
  .record
    [.field (·.root) (fun e v => { e with root := v }) B.value2b,
     .field (·.bass_note) (fun e v => { e with bass_note := v }) B.value2b,
     .field (·.mask) (fun e v => { e with mask := v }) B.value2b,
     .field (·.text) (fun e v => { e with text := v }) (B.text2b 128)]

@[simp] theorem YaChordEvent.serialize_put (old e : YaChordEvent) :
    (serialize B).put old e = e := by
  simp [serialize]

@[simp] theorem YaChordEvent.serialize_fits (e : YaChordEvent) :
    (serialize B).fits e = decide (e.text.length ≤ 128) := by
  have htext : ∀ t, (B.text2b 128).fits t = decide (t.length ≤ 128) := B.text2b_fits (by decide)
  simp [serialize, htext]

def YaScaleEvent.serialize : Codec YaScaleEvent :=
  .record
    [.field (·.root) (fun e v => { e with root := v }) B.value2b,
     .field (·.mask) (fun e v => { e with mask := v }) B.value2b,
     .field (·.text) (fun e v => { e with text := v }) (B.text2b 128)]

@[simp] theorem YaScaleEvent.serialize_put (old e : YaScaleEvent) :
    (serialize B).put old e = e := by
  simp [serialize]

@[simp] theorem YaScaleEvent.serialize_fits (e : YaScaleEvent) :
    (serialize B).fits e = decide (e.text.length ≤ 128) := by
  have htext : ∀ t, (B.text2b 128).fits t = decide (t.length ≤ 128) := B.text2b_fits (by decide)
  simp [serialize, htext]

def LegacyMIDICCOutEvent.serialize : Codec LegacyMIDICCOutEvent :=
  .record
    [.field (·.controlNumber) (fun e v => { e with controlNumber := v }) B.value1b,
     .field (·.channel) (fun e v => { e with channel := v }) B.value1b,
     .field (·.value) (fun e v => { e with value := v }) B.value1b,
     .field (·.value2) (fun e v => { e with value2 := v }) B.value1b]

@[simp] theorem LegacyMIDICCOutEvent.serialize_put (old e : LegacyMIDICCOutEvent) :
    (serialize B).put old e = e := by
  cases e
  rfl

@[simp] theorem LegacyMIDICCOutEvent.serialize_fits (e : LegacyMIDICCOutEvent) :
    (serialize B).fits e = true := by
  simp [serialize]

namespace YaEvent

def Payload.alternatives : List (Alt Payload) :=
  [Bitsery.alternative (fun | .noteOn e => some e | _ => none) .noteOn default true
     (NoteOnEvent.serialize B),
   Bitsery.alternative (fun | .noteOff e => some e | _ => none) .noteOff default true
     (NoteOffEvent.serialize B),
   Bitsery.alternative (fun | .data e => some e | _ => none) .data ⟨0, []⟩ false
     (YaDataEvent.serialize B),
   Bitsery.alternative (fun | .polyPressure e => some e | _ => none) .polyPressure default true
     (PolyPressureEvent.serialize B),
   Bitsery.alternative (fun | .noteExpressionValue e => some e | _ => none) .noteExpressionValue
     default true (NoteExpressionValueEvent.serialize B),
   Bitsery.alternative (fun | .noteExpressionText e => some e | _ => none) .noteExpressionText
     ⟨0, 0, []⟩ false (YaNoteExpressionTextEvent.serialize B),
   Bitsery.alternative (fun | .chord e => some e | _ => none) .chord ⟨0, 0, 0, []⟩ false
     (YaChordEvent.serialize B),
   Bitsery.alternative (fun | .scale e => some e | _ => none) .scale ⟨0, 0, []⟩ false
     (YaScaleEvent.serialize B),
   Bitsery.alternative (fun | .midiCCOut e => some e | _ => none) .midiCCOut default true
     (LegacyMIDICCOutEvent.serialize B)]

def serialize : Codec YaEvent :=
  .record
    [.field (·.bus_index) (fun e v => { e with bus_index := v }) B.value4b,
     .field (·.sample_offset) (fun e v => { e with sample_offset := v }) B.value4b,
     .field (·.ppq_position) (fun e v => { e with ppq_position := v }) B.value8b,
     .field (·.flags) (fun e v => { e with flags := v }) B.value2b,
     .field (·.payload) (fun e v => { e with payload := v })
       (B.inPlaceVariant (Payload.alternatives B))]

theorem Payload.alternatives_put (old p : Payload) :
    Codec.putAlts (Payload.alternatives B) old p = p := by
  cases p <;>
    simp [Payload.alternatives, Codec.putAlts, Bitsery.alternative, Alt.put]

@[simp] theorem serialize_put (old e : YaEvent) : (serialize B).put old e = e := by
  simp [serialize, Payload.alternatives_put]

theorem serialize_fits (e : YaEvent) : (serialize B).fits e ↔ e.payload.Bounded := by
  obtain ⟨bus, offset, ppq, flags, p⟩ := e
  cases p <;>
    simp [serialize, Payload.alternatives, Bitsery.alternative, Codec.fitsAlts, B.fitsSize,
      Payload.Bounded]

end YaEvent
end Serialize

/-! ## `YaEventList` -/

structure YaEventList where
  events_ : List YaEvent
  deriving DecidableEq

namespace YaEventList

def clear (_ : YaEventList) : YaEventList := ⟨[]⟩

def addEvent (l : YaEventList) (e : Event) : YaEventList := ⟨l.events_ ++ [.ofEvent e]⟩

/-- The events are emplaced one after the other in the emptied list. -/
def repopulate (l : YaEventList) (event_list : List Event) : YaEventList :=
  event_list.foldl addEvent l.clear

/-- The host's list with the events added to it. -/
def write_back_outputs (l : YaEventList) (output_events : List Event) : List Event :=
  l.events_.foldl (fun events e => events ++ [e.get]) output_events

/-- The events that a reader of the interface finds. -/
def events (l : YaEventList) : List Event := l.events_.map YaEvent.get

def serialize (B : Bitsery) : Codec YaEventList :=
  .record [.field (·.events_) (fun l v => { l with events_ := v })
    (B.container (2 ^ 16) .fresh (YaEvent.serialize B))]

theorem foldl_addEvent (es : List Event) (l : YaEventList) :
    es.foldl addEvent l = ⟨l.events_ ++ es.map .ofEvent⟩ := by
  induction es generalizing l with
  | nil => simp
  | cons e es ih => simp [ih, addEvent]

theorem repopulate_eq (l : YaEventList) (es : List Event) :
    l.repopulate es = ⟨es.map .ofEvent⟩ := by
  simp [repopulate, foldl_addEvent, clear]

theorem write_back_outputs_eq (l : YaEventList) (es : List Event) :
    l.write_back_outputs es = es ++ l.events := by
  obtain ⟨xs⟩ := l
  unfold write_back_outputs events
  induction xs generalizing es with
  | nil => simp
  | cons x xs ih =>
    rw [List.foldl_cons, ih]
    simp

@[simp] theorem serialize_put (B : Bitsery) (old l : YaEventList) :
    (serialize B).put old l = l := by
  have hevent : (YaEvent.serialize B).Overwrites := YaEvent.serialize_put B
  simp only [serialize, Codec.record_cons_put, Codec.record_nil_put, Codec.field_put,
    Bitsery.container_put, Codec.putList_eq _ _ hevent]

/-- At most `2 ^ 16` events with bounded texts. -/
def Bounded (l : YaEventList) : Prop :=
  l.events_.length ≤ 2 ^ 16 ∧ ∀ e ∈ l.events_, e.payload.Bounded

theorem serialize_fits (B : Bitsery) (l : YaEventList) : (serialize B).fits l ↔ l.Bounded := by
  have hfits : ∀ xs, (B.container 65536 .fresh (YaEvent.serialize B)).fits xs =
      (decide (xs.length ≤ 65536) && xs.all (YaEvent.serialize B).fits) :=
    B.container_fits _ _ (by decide)
  simp [serialize, hfits, YaEvent.serialize_fits, Bounded]

/-- Known events that fit are not changed by their wrappers. -/
theorem events_map_ofEvent {es : List Event} (hknown : ∀ e ∈ es, e.Known)
    (h : Bounded ⟨es.map .ofEvent⟩) : events ⟨es.map .ofEvent⟩ = es := by
  unfold events
  rw [List.map_map]
  nth_rewrite 2 [← List.map_id es]
  apply List.map_congr_left
  intro e he
  exact YaEvent.get_ofEvent (hknown e he) (h.2 _ (List.mem_map_of_mem he))

end YaEventList
end Vst3
