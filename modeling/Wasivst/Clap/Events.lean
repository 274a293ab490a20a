import Wasivst.Bitsery

/-!
# CLAP events

The event structs with their serializers, `Event` and `EventList` of
`serialization/clap/events.{h,cpp}`. Signed fields and floating point fields are kept as words:
they are only copied. The numbers of the event types are those of CLAP.
-/

set_option autoImplicit false

namespace Clap
open InPlace

structure EventHeader where
  size : UInt32
  time : UInt32
  space_id : UInt16
  type : UInt16
  flags : UInt32
  deriving DecidableEq, Inhabited

structure EventNote where
  header : EventHeader
  note_id : UInt32
  port_index : UInt16
  channel : UInt16
  key : UInt16
  velocity : UInt64
  deriving DecidableEq, Inhabited

structure EventNoteExpression where
  header : EventHeader
  expression_id : UInt32
  note_id : UInt32
  port_index : UInt16
  channel : UInt16
  key : UInt16
  value : UInt64
  deriving DecidableEq, Inhabited

structure EventParamValue where
  header : EventHeader
  param_id : UInt32
  cookie : UInt64
  note_id : UInt32
  port_index : UInt16
  channel : UInt16
  key : UInt16
  value : UInt64
  deriving DecidableEq, Inhabited

structure EventParamMod where
  header : EventHeader
  param_id : UInt32
  cookie : UInt64
  note_id : UInt32
  port_index : UInt16
  channel : UInt16
  key : UInt16
  amount : UInt64
  deriving DecidableEq, Inhabited

structure EventParamGesture where
  header : EventHeader
  param_id : UInt32
  deriving DecidableEq, Inhabited

structure EventTransport where
  header : EventHeader
  flags : UInt32
  song_pos_beats : UInt64
  song_pos_seconds : UInt64
  tempo : UInt64
  tempo_inc : UInt64
  loop_start_beats : UInt64
  loop_end_beats : UInt64
  loop_start_seconds : UInt64
  loop_end_seconds : UInt64
  bar_start : UInt64
  bar_number : UInt32
  tsig_num : UInt16
  tsig_denom : UInt16
  deriving DecidableEq, Inhabited

structure EventMidi where
  header : EventHeader
  port_index : UInt16
  data : Vector UInt8 3
  deriving DecidableEq, Inhabited

structure EventMidi2 where
  header : EventHeader
  port_index : UInt16
  data : Vector UInt32 4
  deriving DecidableEq, Inhabited

/-- `buffer` is the memory that the pointer shows, if it is not null. -/
structure EventMidiSysex where
  header : EventHeader
  port_index : UInt16
  buffer : Option (List UInt8)
  size : UInt32
  deriving DecidableEq, Inhabited

section Serialize
variable (B : Bitsery)

def EventHeader.serialize : Codec EventHeader :=
  .record
    [.field (·.size) (fun e v => { e with size := v }) B.value4b,
     .field (·.time) (fun e v => { e with time := v }) B.value4b,
     .field (·.space_id) (fun e v => { e with space_id := v }) B.value2b,
     .field (·.type) (fun e v => { e with type := v }) B.value2b,
     .field (·.flags) (fun e v => { e with flags := v }) B.value4b]

@[simp] theorem EventHeader.serialize_put (old e : EventHeader) : (serialize B).put old e = e := rfl

@[simp] theorem EventHeader.serialize_fits (e : EventHeader) : (serialize B).fits e = true := by
  simp [serialize]

def EventNote.serialize : Codec EventNote :=
  .record
    [.field (·.header) (fun e v => { e with header := v }) (EventHeader.serialize B),
     .field (·.note_id) (fun e v => { e with note_id := v }) B.value4b,
     .field (·.port_index) (fun e v => { e with port_index := v }) B.value2b,
     .field (·.channel) (fun e v => { e with channel := v }) B.value2b,
     .field (·.key) (fun e v => { e with key := v }) B.value2b,
     .field (·.velocity) (fun e v => { e with velocity := v }) B.value8b]

@[simp] theorem EventNote.serialize_put (old e : EventNote) : (serialize B).put old e = e := by
  cases e
  rfl

@[simp] theorem EventNote.serialize_fits (e : EventNote) : (serialize B).fits e = true := by
  simp [serialize]

def EventNoteExpression.serialize : Codec EventNoteExpression :=
  .record
    [.field (·.header) (fun e v => { e with header := v }) (EventHeader.serialize B),
     .field (·.expression_id) (fun e v => { e with expression_id := v }) B.value4b,
     .field (·.note_id) (fun e v => { e with note_id := v }) B.value4b,
     .field (·.port_index) (fun e v => { e with port_index := v }) B.value2b,
     .field (·.channel) (fun e v => { e with channel := v }) B.value2b,
     .field (·.key) (fun e v => { e with key := v }) B.value2b,
     .field (·.value) (fun e v => { e with value := v }) B.value8b]

@[simp] theorem EventNoteExpression.serialize_put (old e : EventNoteExpression) :
    (serialize B).put old e = e := by
  cases e
  rfl

@[simp] theorem EventNoteExpression.serialize_fits (e : EventNoteExpression) :
    (serialize B).fits e = true := by
  simp [serialize]

def EventParamValue.serialize : Codec EventParamValue :=
  .record
    [.field (·.header) (fun e v => { e with header := v }) (EventHeader.serialize B),
     .field (·.param_id) (fun e v => { e with param_id := v }) B.value4b,
     .field (·.cookie) (fun e v => { e with cookie := v }) B.value8b,
     .field (·.note_id) (fun e v => { e with note_id := v }) B.value4b,
     .field (·.port_index) (fun e v => { e with port_index := v }) B.value2b,
     .field (·.channel) (fun e v => { e with channel := v }) B.value2b,
     .field (·.key) (fun e v => { e with key := v }) B.value2b,
     .field (·.value) (fun e v => { e with value := v }) B.value8b]

@[simp] theorem EventParamValue.serialize_put (old e : EventParamValue) :
    (serialize B).put old e = e := by
  cases e
  rfl

@[simp] theorem EventParamValue.serialize_fits (e : EventParamValue) :
    (serialize B).fits e = true := by
  simp [serialize]

def EventParamMod.serialize : Codec EventParamMod :=
  .record
    [.field (·.header) (fun e v => { e with header := v }) (EventHeader.serialize B),
     .field (·.param_id) (fun e v => { e with param_id := v }) B.value4b,
     .field (·.cookie) (fun e v => { e with cookie := v }) B.value8b,
     .field (·.note_id) (fun e v => { e with note_id := v }) B.value4b,
     .field (·.port_index) (fun e v => { e with port_index := v }) B.value2b,
     .field (·.channel) (fun e v => { e with channel := v }) B.value2b,
     .field (·.key) (fun e v => { e with key := v }) B.value2b,
     .field (·.amount) (fun e v => { e with amount := v }) B.value8b]

@[simp] theorem EventParamMod.serialize_put (old e : EventParamMod) :
    (serialize B).put old e = e := by
  cases e
  rfl

@[simp] theorem EventParamMod.serialize_fits (e : EventParamMod) : (serialize B).fits e = true := by
  simp [serialize]

def EventParamGesture.serialize : Codec EventParamGesture :=
  .record
    [.field (·.header) (fun e v => { e with header := v }) (EventHeader.serialize B),
     .field (·.param_id) (fun e v => { e with param_id := v }) B.value4b]

@[simp] theorem EventParamGesture.serialize_put (old e : EventParamGesture) :
    (serialize B).put old e = e := by
  cases e
  rfl

@[simp] theorem EventParamGesture.serialize_fits (e : EventParamGesture) :
    (serialize B).fits e = true := by
  simp [serialize]

def EventTransport.serialize : Codec EventTransport :=
  .record
    [.field (·.header) (fun e v => { e with header := v }) (EventHeader.serialize B),
     .field (·.flags) (fun e v => { e with flags := v }) B.value4b,
     .field (·.song_pos_beats) (fun e v => { e with song_pos_beats := v }) B.value8b,
     .field (·.song_pos_seconds) (fun e v => { e with song_pos_seconds := v }) B.value8b,
     .field (·.tempo) (fun e v => { e with tempo := v }) B.value8b,
     .field (·.tempo_inc) (fun e v => { e with tempo_inc := v }) B.value8b,
     .field (·.loop_start_beats) (fun e v => { e with loop_start_beats := v }) B.value8b,
     .field (·.loop_end_beats) (fun e v => { e with loop_end_beats := v }) B.value8b,
     .field (·.loop_start_seconds) (fun e v => { e with loop_start_seconds := v }) B.value8b,
     .field (·.loop_end_seconds) (fun e v => { e with loop_end_seconds := v }) B.value8b,
     .field (·.bar_start) (fun e v => { e with bar_start := v }) B.value8b,
     .field (·.bar_number) (fun e v => { e with bar_number := v }) B.value4b,
     .field (·.tsig_num) (fun e v => { e with tsig_num := v }) B.value2b,
     .field (·.tsig_denom) (fun e v => { e with tsig_denom := v }) B.value2b]

@[simp] theorem EventTransport.serialize_put (old e : EventTransport) :
    (serialize B).put old e = e := by
  cases e
  rfl

@[simp] theorem EventTransport.serialize_fits (e : EventTransport) :
    (serialize B).fits e = true := by
  simp [serialize]

def EventMidi.serialize : Codec EventMidi :=
  .record
    [.field (·.header) (fun e v => { e with header := v }) (EventHeader.serialize B),
     .field (·.port_index) (fun e v => { e with port_index := v }) B.value2b,
     .field (·.data) (fun e v => { e with data := v }) (B.array1b 3)]

@[simp] theorem EventMidi.serialize_put (old e : EventMidi) : (serialize B).put old e = e := by
  cases e
  rfl

@[simp] theorem EventMidi.serialize_fits (e : EventMidi) : (serialize B).fits e = true := by
  simp [serialize]

def EventMidi2.serialize : Codec EventMidi2 :=
  .record
    [.field (·.header) (fun e v => { e with header := v }) (EventHeader.serialize B),
     .field (·.port_index) (fun e v => { e with port_index := v }) B.value2b,
     .field (·.data) (fun e v => { e with data := v }) (B.array4b 4)]

@[simp] theorem EventMidi2.serialize_put (old e : EventMidi2) : (serialize B).put old e = e := by
  cases e
  rfl

@[simp] theorem EventMidi2.serialize_fits (e : EventMidi2) : (serialize B).fits e = true := by
  simp [serialize]

/-! ## `Event` -/

/-- `payload::MidiSysex`; the other payloads are their event struct and nothing else. -/
structure MidiSysex where
  event : EventMidiSysex
  buffer : List UInt8
  deriving DecidableEq, Inhabited

/-- The pointer and the size of the event are cleared, the bytes travel in `buffer`. -/
def MidiSysex.serialize : Codec MidiSysex :=
  .record
    [.field (·.event.header) (fun p v => { p with event.header := v }) (EventHeader.serialize B),
     .field (·.event.port_index) (fun p v => { p with event.port_index := v }) B.value2b,
     .field (·.buffer) (fun p v => { p with buffer := v }) (B.text1b (2 ^ 16)),
     .field (·.event.buffer) (fun p v => { p with event.buffer := v }) (.const none),
     .field (·.event.size) (fun p v => { p with event.size := v }) (.const 0)]

theorem MidiSysex.serialize_put (old p : MidiSysex) :
    (serialize B).put old p = { p with event.buffer := none, event.size := 0 } := by
  simp [serialize]

theorem MidiSysex.serialize_fits (p : MidiSysex) :
    (serialize B).fits p = decide (p.buffer.length ≤ 2 ^ 16) := by
  have htext : ∀ t, (B.text1b 65536).fits t = decide (t.length ≤ 65536) :=
    B.text1b_fits (by decide)
  simp [serialize, htext]

inductive Payload
  | note (event : EventNote)
  | noteExpression (event : EventNoteExpression)
  | paramValue (event : EventParamValue)
  | paramMod (event : EventParamMod)
  | paramGesture (event : EventParamGesture)
  | transport (event : EventTransport)
  | midi (event : EventMidi)
  | midiSysex (payload : MidiSysex)
  | midi2 (event : EventMidi2)
  deriving DecidableEq

structure Event where
  payload : Payload
  deriving DecidableEq

def Payload.alternatives : List (Alt Payload) :=
  [Bitsery.alternative (fun | .note e => some e | _ => none) .note default true
     (EventNote.serialize B),
   Bitsery.alternative (fun | .noteExpression e => some e | _ => none) .noteExpression default true
     (EventNoteExpression.serialize B),
   Bitsery.alternative (fun | .paramValue e => some e | _ => none) .paramValue default true
     (EventParamValue.serialize B),
   Bitsery.alternative (fun | .paramMod e => some e | _ => none) .paramMod default true
     (EventParamMod.serialize B),
   Bitsery.alternative (fun | .paramGesture e => some e | _ => none) .paramGesture default true
     (EventParamGesture.serialize B),
   Bitsery.alternative (fun | .transport e => some e | _ => none) .transport default true
     (EventTransport.serialize B),
   Bitsery.alternative (fun | .midi e => some e | _ => none) .midi default true
     (EventMidi.serialize B),
   Bitsery.alternative (fun | .midiSysex e => some e | _ => none) .midiSysex default false
     (MidiSysex.serialize B),
   Bitsery.alternative (fun | .midi2 e => some e | _ => none) .midi2 default true
     (EventMidi2.serialize B)]

def Event.serialize : Codec Event :=
  .record [.field (·.payload) (fun e v => { e with payload := v })
    (B.inPlaceVariant (Payload.alternatives B))]

/-- What a payload is like after it has crossed the wire. -/
def Payload.sent : Payload → Payload
  | .midiSysex p => .midiSysex { p with event.buffer := none, event.size := 0 }
  | p => p

theorem Payload.alternatives_put (old p : Payload) :
    Codec.putAlts (Payload.alternatives B) old p = p.sent := by
  cases p <;>
    simp [Payload.alternatives, Codec.putAlts, Bitsery.alternative, Alt.put, Payload.sent,
      MidiSysex.serialize_put]

theorem Event.serialize_put (old e : Event) : (Event.serialize B).put old e = ⟨e.payload.sent⟩ := by
  simp [Event.serialize, Payload.alternatives_put]

/-- Only the bytes of a SysEx event are bounded. -/
def Payload.Bounded : Payload → Prop
  | .midiSysex p => p.buffer.length ≤ 2 ^ 16
  | _ => True

theorem Event.serialize_fits (e : Event) : (Event.serialize B).fits e ↔ e.payload.Bounded := by
  obtain ⟨p⟩ := e
  cases p <;>
    simp [Event.serialize, Payload.alternatives, Bitsery.alternative, Codec.fitsAlts,
      B.fitsSize, Payload.Bounded, MidiSysex.serialize_fits]

end Serialize
/-! ## Reading an event -/

def CLAP_CORE_EVENT_SPACE_ID : UInt16 := 0

/-- The groups of case labels of the switch on the event type. -/
inductive CoreType
  | note
  | noteExpression
  | paramValue
  | paramMod
  | paramGesture
  | transport
  | midi
  | midiSysex
  | midi2
  deriving DecidableEq

def coreType (type : UInt16) : Option CoreType :=
  match type.toNat with
  | 0 | 1 | 2 | 3 => some .note
  | 4 => some .noteExpression
  | 5 => some .paramValue
  | 6 => some .paramMod
  | 7 | 8 => some .paramGesture
  | 9 => some .transport
  | 10 => some .midi
  | 11 => some .midiSysex
  | 12 => some .midi2
  | _ => none

/-- An event of another party: its header, and the memory from the header on as each of the
structs reads it. -/
structure GenericEvent where
  header : EventHeader
  note : EventNote
  noteExpression : EventNoteExpression
  paramValue : EventParamValue
  paramMod : EventParamMod
  paramGesture : EventParamGesture
  transport : EventTransport
  midi : EventMidi
  midiSysex_port_index : UInt16
  midiSysex_buffer : List UInt8
  midi2 : EventMidi2

namespace GenericEvent
variable (e : GenericEvent)

def asNote : EventNote := { e.note with header := e.header }

def asNoteExpression : EventNoteExpression := { e.noteExpression with header := e.header }

def asParamValue : EventParamValue := { e.paramValue with header := e.header }

def asParamMod : EventParamMod := { e.paramMod with header := e.header }

def asParamGesture : EventParamGesture := { e.paramGesture with header := e.header }

def asTransport : EventTransport := { e.transport with header := e.header }

def asMidi : EventMidi := { e.midi with header := e.header }

/-- The `size` of a SysEx event is the length of its buffer. -/
def asMidiSysex : EventMidiSysex where
  header := e.header
  port_index := e.midiSysex_port_index
  buffer := some e.midiSysex_buffer
  size := UInt32.ofNat e.midiSysex_buffer.length

def asMidi2 : EventMidi2 := { e.midi2 with header := e.header }

end GenericEvent

/-- `Event::parse`. The case of the SysEx events builds its payload in a local variable of its
own and leaves `payload` empty. -/
def Event.parse (generic_event : GenericEvent) : Option Event :=
  let payload : Option Payload :=
    if generic_event.header.space_id = CLAP_CORE_EVENT_SPACE_ID then
      match coreType generic_event.header.type with
      | some .note => some (.note generic_event.asNote)
      | some .noteExpression => some (.noteExpression generic_event.asNoteExpression)
      | some .paramValue => some (.paramValue generic_event.asParamValue)
      | some .paramMod => some (.paramMod generic_event.asParamMod)
      | some .paramGesture => some (.paramGesture generic_event.asParamGesture)
      | some .transport => some (.transport generic_event.asTransport)
      | some .midi => some (.midi generic_event.asMidi)
      | some .midiSysex =>
        let event := generic_event.asMidiSysex
        let _sysex_payload : MidiSysex :=
          { event := { event with buffer := none, size := 0 },
            buffer := generic_event.midiSysex_buffer }
        none
      | some .midi2 => some (.midi2 generic_event.asMidi2)
      | none => none
    else none
  payload.map fun payload => { payload }

/-- What the other side sees of an event through the pointer to its header. -/
inductive Seen
  | note (event : EventNote)
  | noteExpression (event : EventNoteExpression)
  | paramValue (event : EventParamValue)
  | paramMod (event : EventParamMod)
  | paramGesture (event : EventParamGesture)
  | transport (event : EventTransport)
  | midi (event : EventMidi)
  | midiSysex (event : EventMidiSysex)
  | midi2 (event : EventMidi2)
  deriving DecidableEq

/-- Pointer and size of a SysEx event are restored here. -/
def Event.get (e : Event) : Seen :=
  match e.payload with
  | .note event => .note event
  | .noteExpression event => .noteExpression event
  | .paramValue event => .paramValue event
  | .paramMod event => .paramMod event
  | .paramGesture event => .paramGesture event
  | .transport event => .transport event
  | .midi event => .midi event
  | .midiSysex p =>
    .midiSysex { p.event with buffer := some p.buffer, size := UInt32.ofNat p.buffer.length }
  | .midi2 event => .midi2 event

/-- The event as it should be seen on the other side, if `Event::parse` has a case for it. -/
def GenericEvent.handled (e : GenericEvent) : Option Seen :=
  if e.header.space_id = CLAP_CORE_EVENT_SPACE_ID then
    (coreType e.header.type).map fun
      | .note => .note e.asNote
      | .noteExpression => .noteExpression e.asNoteExpression
      | .paramValue => .paramValue e.asParamValue
      | .paramMod => .paramMod e.asParamMod
      | .paramGesture => .paramGesture e.asParamGesture
      | .transport => .transport e.asTransport
      | .midi => .midi e.asMidi
      | .midiSysex => .midiSysex e.asMidiSysex
      | .midi2 => .midi2 e.asMidi2
  else none

def GenericEvent.IsSysex (e : GenericEvent) : Prop :=
  e.header.space_id = CLAP_CORE_EVENT_SPACE_ID ∧ coreType e.header.type = some .midiSysex

theorem Event.parse_of_isSysex {e : GenericEvent} (h : e.IsSysex) : Event.parse e = none := by
  simp [Event.parse, h.1, h.2]

/-- Every event but a SysEx event is read as it should be. -/
theorem Event.parse_get {e : GenericEvent} (h : ¬ e.IsSysex) :
    (Event.parse e).map Event.get = e.handled := by
  unfold Event.parse GenericEvent.handled
  by_cases hspace : e.header.space_id = CLAP_CORE_EVENT_SPACE_ID
  · cases htype : coreType e.header.type with
    | none => simp [hspace]
    | some t =>
      cases t with
      | midiSysex => exact absurd ⟨hspace, htype⟩ h
      | _ => simp [hspace, Event.get]
  · simp [hspace]

theorem GenericEvent.handled_isSome_of_isSysex {e : GenericEvent} (h : e.IsSysex) :
    e.handled.isSome := by
  simp [handled, h.1, h.2]

/-- No SysEx payload is ever stored, so no stored event is too long to be sent. -/
theorem Event.parse_bounded {e : GenericEvent} {p : Event} (h : Event.parse e = some p) :
    p.payload.Bounded ∧ p.payload.sent = p.payload := by
  unfold Event.parse at h
  by_cases hspace : e.header.space_id = CLAP_CORE_EVENT_SPACE_ID
  · cases htype : coreType e.header.type with
    | none => simp [hspace, htype] at h
    | some t =>
      cases t <;> simp only [hspace, htype, if_true, Option.map_some, Option.map_none,
        Option.some.injEq, reduceCtorEq] at h <;> subst h <;>
        exact ⟨trivial, rfl⟩
  · simp [hspace] at h

/-! ## `EventList` -/

structure EventList where
  events_ : List Event

namespace EventList

def serialize (B : Bitsery) : Codec EventList :=
  .record [.field (·.events_) (fun l v => { l with events_ := v })
    (B.container (2 ^ 16) ⟨.note default⟩ (Event.serialize B))]

theorem serialize_put (B : Bitsery) (old l : EventList) :
    (serialize B).put old l = ⟨l.events_.map fun e => ⟨e.payload.sent⟩⟩ := by
  have hmap : ∀ olds xs, Codec.putList ⟨.note default⟩ (Event.serialize B) olds xs =
      xs.map fun e => ⟨e.payload.sent⟩ := by
    intro olds xs
    induction xs generalizing olds with
    | nil => rfl
    | cons x xs ih => simp [Codec.putList, ih, Event.serialize_put]
  simp [serialize, hmap]

theorem serialize_fits (B : Bitsery) (l : EventList) : (serialize B).fits l ↔
    l.events_.length ≤ 2 ^ 16 ∧ ∀ e ∈ l.events_, e.payload.Bounded := by
  have hfits : ∀ xs, (B.container 65536 ⟨.note default⟩ (Event.serialize B)).fits xs =
      (decide (xs.length ≤ 65536) && xs.all (Event.serialize B).fits) :=
    B.container_fits _ _ (by decide)
  simp [serialize, hfits, Event.serialize_fits]

def clear (_ : EventList) : EventList := ⟨[]⟩

/-- One step of the loop of `repopulate`, and all of `out_try_push`. -/
def out_try_push (self : EventList) (event : GenericEvent) : EventList :=
  match Event.parse event with
  | some parsed_event => ⟨self.events_ ++ [parsed_event]⟩
  | none => self

def repopulate (self : EventList) (in_events : List GenericEvent) : EventList :=
  in_events.foldl out_try_push self.clear

def in_size (list : EventList) : UInt32 := UInt32.ofNat list.events_.length

def in_get (list : EventList) (index : Nat) : Option Seen := (list.events_[index]?).map Event.get

/-- The events that a reader gets who asks for the size and then for each event. -/
def read (list : EventList) : List (Option Seen) :=
  (List.range list.in_size.toNat).map list.in_get

/-- The events that a recording `out_events` receives. -/
def write_back_outputs (self : EventList) : List Seen := self.events_.map Event.get

theorem foldl_out_try_push (es : List GenericEvent) (l : EventList) :
    es.foldl out_try_push l = ⟨l.events_ ++ es.filterMap Event.parse⟩ := by
  induction es generalizing l with
  | nil => simp
  | cons e es ih =>
    rw [List.foldl_cons, ih]
    cases he : Event.parse e with
    | none => simp [out_try_push, he]
    | some p => simp [out_try_push, he]

theorem repopulate_eq (l : EventList) (es : List GenericEvent) :
    l.repopulate es = ⟨es.filterMap Event.parse⟩ := by
  simp [repopulate, foldl_out_try_push, clear]

theorem read_eq {l : EventList} (h : l.events_.length < 2 ^ 32) :
    l.read = l.write_back_outputs.map some := by
  have hsize : l.in_size.toNat = l.events_.length := by
    simp only [in_size, UInt32.toNat_ofNat']
    exact Nat.mod_eq_of_lt h
  apply List.ext_getElem?
  intro i
  simp only [read, hsize, write_back_outputs, List.getElem?_map]
  rcases Nat.lt_or_ge i l.events_.length with hi | hi
  · simp [hi, in_get]
  · simp [hi]

/-- A list that was read from another party is sent as it is. -/
theorem serialize_put_parsed (B : Bitsery) (into : EventList) (es : List GenericEvent) :
    (serialize B).put into ⟨es.filterMap Event.parse⟩ = ⟨es.filterMap Event.parse⟩ := by
  have hsent : (es.filterMap Event.parse).map (fun e => (⟨e.payload.sent⟩ : Event)) =
      es.filterMap Event.parse := by
    nth_rewrite 2 [← List.map_id (es.filterMap Event.parse)]
    apply List.map_congr_left
    intro e he
    obtain ⟨g, _, hg⟩ := List.mem_filterMap.mp he
    exact congrArg Event.mk (Event.parse_bounded hg).2
  rw [serialize_put, hsent]

theorem serialize_fits_parsed (B : Bitsery) (es : List GenericEvent) :
    (serialize B).fits ⟨es.filterMap Event.parse⟩ ↔
      (es.filterMap Event.parse).length ≤ 2 ^ 16 := by
  rw [serialize_fits]
  apply and_iff_left
  intro e he
  obtain ⟨g, _, hg⟩ := List.mem_filterMap.mp he
  exact (Event.parse_bounded hg).1

theorem transfer_parsed (B : Bitsery) (into : EventList) (es : List GenericEvent) :
    (serialize B).transfer into ⟨es.filterMap Event.parse⟩ =
      if (es.filterMap Event.parse).length ≤ 2 ^ 16 then some ⟨es.filterMap Event.parse⟩
      else none := by
  simp only [Codec.transfer_eq, serialize_put_parsed, serialize_fits_parsed]

/-! ## What arrives of a list of events -/

theorem write_back_parsed (es : List GenericEvent) :
    write_back_outputs ⟨es.filterMap Event.parse⟩ =
      es.filterMap fun e => (Event.parse e).map Event.get := by
  simp [write_back_outputs, List.map_filterMap]

/-- The events of the other party arrive in order, all those that are handled and no other. -/
theorem parsed_eq_handled_iff (es : List GenericEvent) :
    write_back_outputs ⟨es.filterMap Event.parse⟩ = es.filterMap GenericEvent.handled ↔
      ∀ e ∈ es, ¬ e.IsSysex := by
  rw [write_back_parsed]
  constructor
  · -- with a SysEx event the list that arrives is too short
    intro h e he hsys
    have hle : ∀ fs : List GenericEvent,
        (fs.filterMap fun e => (Event.parse e).map Event.get).length ≤
          (fs.filterMap GenericEvent.handled).length := by
      intro fs
      simp only [List.length_filterMap_eq_countP]
      apply List.countP_mono_left
      intro g _ hg
      by_cases hgs : g.IsSysex
      · exact GenericEvent.handled_isSome_of_isSysex hgs
      · rwa [Event.parse_get hgs] at hg
    obtain ⟨as, bs, rfl⟩ := List.append_of_mem he
    obtain ⟨v, hv⟩ := Option.isSome_iff_exists.mp (GenericEvent.handled_isSome_of_isSysex hsys)
    have hlen := congrArg List.length h
    simp only [List.filterMap_append, List.filterMap_cons, Event.parse_of_isSysex hsys,
      Option.map_none, hv, List.length_append, List.length_cons] at hlen
    have h1 := hle as
    have h2 := hle bs
    omega
  · intro h
    apply List.filterMap_congr
    intro e he
    exact Event.parse_get (h e he)

/-- The events are read into a list, sent and decoded into some list; there they are read one by
one or pushed to the other party, and the handled ones are all there. -/
def Bridged (B : Bitsery) (from_ into : EventList) (in_events : List GenericEvent) : Prop :=
  ∃ l, (serialize B).transfer into (from_.repopulate in_events) = some l ∧
    l.read = (in_events.filterMap GenericEvent.handled).map some ∧
    l.write_back_outputs = in_events.filterMap GenericEvent.handled

theorem no_sysex_of_bridged {B : Bitsery} {from_ into : EventList}
    {in_events : List GenericEvent} (h : Bridged B from_ into in_events) :
    (∀ e ∈ in_events, ¬ e.IsSysex) ∧
      (in_events.filterMap GenericEvent.handled).length ≤ 2 ^ 16 := by
  obtain ⟨l, ht, _, hw⟩ := h
  rw [repopulate_eq, transfer_parsed] at ht
  split_ifs at ht with hmax
  obtain rfl := Option.some.inj ht
  refine ⟨(parsed_eq_handled_iff in_events).mp hw, ?_⟩
  rw [← hw]
  simpa [write_back_outputs] using hmax

theorem bridged_of_no_sysex (B : Bitsery) (from_ into : EventList)
    {in_events : List GenericEvent} (hs : ∀ e ∈ in_events, ¬ e.IsSysex)
    (hmax : (in_events.filterMap GenericEvent.handled).length ≤ 2 ^ 16) :
    Bridged B from_ into in_events := by
  have hw := (parsed_eq_handled_iff in_events).mpr hs
  have hle : (in_events.filterMap Event.parse).length ≤ 2 ^ 16 := by
    rw [← hw] at hmax
    simpa [write_back_outputs] using hmax
  refine ⟨⟨in_events.filterMap Event.parse⟩, ?_, ?_, hw⟩
  · rw [repopulate_eq, transfer_parsed, if_pos hle]
  · rw [read_eq (Nat.lt_of_le_of_lt hle (by decide)), hw]

/-- Every list that fits the container arrives complete, unless it has a SysEx event. -/
theorem clapEvents_bridged_iff (B : Bitsery) (from_ into : EventList)
    (in_events : List GenericEvent) :
    Bridged B from_ into in_events ↔ (∀ e ∈ in_events, ¬ e.IsSysex) ∧
      (in_events.filterMap GenericEvent.handled).length ≤ 2 ^ 16 :=
  ⟨no_sysex_of_bridged, fun h => bridged_of_no_sysex B from_ into h.1 h.2⟩

def oneSysex : GenericEvent where
  header := { size := 0, time := 0, space_id := CLAP_CORE_EVENT_SPACE_ID, type := 11, flags := 0 }
  note := default
  noteExpression := default
  paramValue := default
  paramMod := default
  paramGesture := default
  transport := default
  midi := default
  midiSysex_port_index := 0
  midiSysex_buffer := [0xF0, 0xF7]
  midi2 := default

theorem sysex_event_dropped :
    ¬ ∀ (B : Bitsery) (from_ into : EventList) (in_events : List GenericEvent),
      (∀ e ∈ in_events, e.midiSysex_buffer.length ≤ 65536) → Bridged B from_ into in_events := by
  intro h
  have hb := h Bitsery.default ⟨[]⟩ ⟨[]⟩ [oneSysex] (by decide)
  exact (no_sysex_of_bridged hb).1 oneSysex List.mem_cons_self ⟨rfl, rfl⟩

end EventList
end Clap
