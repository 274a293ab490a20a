import Wasivst.Vst3.EventList

/-!
# VST3 event lists on the other side

What a reader of a `YaEventList` finds by `getEvent()`, and what it gets from
`write_back_outputs()`, after the list was filled from a host's list and perhaps sent.
-/

set_option autoImplicit false

namespace Vst3
open InPlace

namespace YaEventList

/-- The size is cast to `int32`. -/
def getEventCount (l : YaEventList) : Int32 := Int32.ofNat l.events_.length

/-- `none` is `kInvalidArgument`. -/
def getEvent (l : YaEventList) (index : Int32) : Option Event :=
  if index < 0 ∨ Int32.ofNat l.events_.length ≤ index then none
  else l.events_[index.toNatClampNeg]?.map (·.get)

/-- A reader that asks for all indices. -/
def getEvents (l : YaEventList) : List Event :=
  (List.range l.getEventCount.toNatClampNeg).filterMap fun i => l.getEvent (Int32.ofNat i)

theorem getEvent_mem {l : YaEventList} {index : Int32} {e : Event}
    (h : l.getEvent index = some e) : e ∈ l.events := by
  unfold getEvent at h
  split_ifs at h
  obtain ⟨x, hx, rfl⟩ := Option.map_eq_some_iff.mp h
  exact List.mem_map_of_mem (List.mem_of_getElem? hx)

theorem getEvent_eq {l : YaEventList} (hlen : l.events_.length < 2 ^ 31) (index : Int32) :
    l.getEvent index = if 0 ≤ index then l.events[index.toNatClampNeg]? else none := by
  unfold getEvent events
  rw [List.getElem?_map]
  by_cases hneg : index < 0
  · rw [if_pos (.inl hneg), if_neg (Int32.not_le.mpr hneg)]
  · have hpos : 0 ≤ index := Int32.not_lt.mp hneg
    rw [if_pos hpos]
    split_ifs with h
    · have hle : l.events_.length ≤ index.toNatClampNeg := by
        have hcount := Int32.toNatClampNeg_le (h.resolve_left hneg)
        rwa [Int32.toNatClampNeg_ofNat_of_lt hlen] at hcount
      rw [List.getElem?_eq_none hle, Option.map_none]
    · rfl

theorem filterMap_range_getElem? {α : Type} (xs : List α) (n : Nat) :
    (List.range n).filterMap (fun i => xs[i]?) = xs.take n := by
  induction n with
  | zero => rfl
  | succ n ih =>
    rw [List.range_succ, List.filterMap_append, ih, List.take_add_one]
    cases h : xs[n]? <;> simp [h]

/-- A size that does not fit into an `int32` cuts the list. -/
theorem getEvents_eq (l : YaEventList) :
    l.getEvents = l.events.take l.getEventCount.toNatClampNeg := by
  rw [← filterMap_range_getElem?]
  apply List.filterMap_congr
  intro i hi
  have hlt : i < l.getEventCount.toNatClampNeg := List.mem_range.mp hi
  have hmax := Int32.toNatClampNeg_lt l.getEventCount
  have hindex : (Int32.ofNat i).toNatClampNeg = i := Int32.toNatClampNeg_ofNat_of_lt (by omega)
  have hin : ¬ (Int32.ofNat i < 0 ∨ Int32.ofNat l.events_.length ≤ Int32.ofNat i) := by
    rintro (h | h)
    · exact absurd (Int32.zero_le_ofNat_of_lt (by omega)) (Int32.not_le.mpr h)
    · have hle := Int32.toNatClampNeg_le h
      rw [hindex] at hle
      exact absurd hlt (Nat.not_lt.mpr hle)
  unfold getEvent events
  rw [if_neg hin, hindex, List.getElem?_map]

end YaEventList

/-! ## Known events -/

/-- The declared maxima of the texts and of the bytes, on the host's side. -/
def EventData.Bounded : EventData → Prop
  | .data event => event.bytes.length ≤ 2 ^ 16
  | .noteExpressionText event => event.text.length ≤ 128
  | .chord event => event.text.length ≤ 128
  | .scale event => event.text.length ≤ 128
  | _ => True

theorem ofData_bounded (d : EventData) : (YaEvent.Payload.ofData d).Bounded ↔ d.Bounded := by
  cases d <;> exact Iff.rfl

/-- The list is sent, and whoever reads it finds the events of the host. -/
def Arrives (B : Bitsery) (old l : YaEventList) (es : List Event) : Prop :=
  ∃ l', (YaEventList.serialize B).transfer old (l.repopulate es) = some l' ∧
    l'.getEventCount.toInt = es.length ∧
    (∀ index, l'.getEvent index = if 0 ≤ index then es[index.toNatClampNeg]? else none) ∧
    ∀ output_events, l'.write_back_outputs output_events = output_events ++ es

/-- Known events within their maxima arrive in any list, unless there are more of them than the
maximum of the list. -/
theorem arrives_iff (B : Bitsery) (old l : YaEventList) {es : List Event}
    (hknown : ∀ e ∈ es, e.Known) (hb : ∀ e ∈ es, e.data.Bounded) :
    Arrives B old l es ↔ es.length ≤ 2 ^ 16 := by
  have hbounded : YaEventList.Bounded ⟨es.map .ofEvent⟩ ↔ es.length ≤ 2 ^ 16 := by
    have hpayload : ∀ e ∈ es, (YaEvent.ofEvent e).payload.Bounded :=
      fun e he => (ofData_bounded e.data).mpr (hb e he)
    simpa [YaEventList.Bounded] using fun _ => hpayload
  unfold Arrives
  rw [YaEventList.repopulate_eq]
  simp only [Codec.transfer_eq_some, YaEventList.serialize_put, YaEventList.serialize_fits]
  constructor
  · rintro ⟨_, ⟨hfits, _⟩, _⟩
    exact hbounded.mp hfits
  · intro hlen
    have hfits := hbounded.mpr hlen
    have hevents := YaEventList.events_map_ofEvent hknown hfits
    refine ⟨_, ⟨hfits, rfl⟩, ?_, ?_, ?_⟩
    · have hint : (Int32.ofNat es.length).toInt = es.length := by
        rw [Int32.toInt_ofNat_of_lt]
        omega
      simpa [YaEventList.getEventCount] using hint
    · intro index
      rw [YaEventList.getEvent_eq, hevents]
      rw [List.length_map]
      omega
    · intro out
      rw [YaEventList.write_back_outputs_eq, hevents]

def someNote : Event := ⟨0, 0, 0, 0, .noteOn default⟩

/-- A chord with its name, a system exclusive message, and a note with a syllable. -/
def sungChord : List Event :=
  [⟨0, 0, 0, 1, .chord ⟨60, 48, 145, [67, 109, 97, 106]⟩⟩, ⟨1, 3, 0, 0, .data ⟨0, [240, 1, 247]⟩⟩,
    ⟨0, 16, 4, 0, .noteOn ⟨2, 60, 0, 1065353216, 0, 7⟩⟩,
    ⟨0, 16, 4, 0, .noteExpressionText ⟨3, 7, [108, 97]⟩⟩]

theorem arrives_sungChord : sungChord.length ≤ 2 ^ 16 ∧
    Arrives .default ⟨[.ofEvent someNote]⟩ ⟨[]⟩ sungChord := by
  have hlen : sungChord.length ≤ 2 ^ 16 := by decide
  refine ⟨hlen, (arrives_iff .default ⟨[.ofEvent someNote]⟩ ⟨[]⟩ ?_ ?_).mpr hlen⟩
  · simp [sungChord, Event.Known]
  · simp [sungChord, EventData.Bounded]

theorem too_many_notes_lost : ¬ ∀ (B : Bitsery) (old l : YaEventList) (es : List Event),
    (∀ e ∈ es, e.Known) → (∀ e ∈ es, e.data.Bounded) → Arrives B old l es := by
  intro h
  have hnote : ∀ e ∈ List.replicate 65537 someNote, e = someNote :=
    fun _ => List.eq_of_mem_replicate
  obtain ⟨_, htransfer, _⟩ := h .default ⟨[]⟩ ⟨[]⟩ (List.replicate 65537 someNote)
    (fun e he => by simp [hnote e he, someNote, Event.Known])
    (fun e he => by simp [hnote e he, someNote, EventData.Bounded])
  rw [YaEventList.repopulate_eq, Codec.transfer_eq_some, YaEventList.serialize_fits] at htransfer
  have hlen := htransfer.1.1
  rw [List.length_map, List.length_replicate] at hlen
  omega

/-! ## Unknown events -/

/-- Texts and bytes that their event can say the length of. -/
def EventData.WellFormed : EventData → Prop
  | .data event => event.bytes.length < 2 ^ 32
  | .noteExpressionText event => event.text.length < 2 ^ 32
  | .chord event => event.text.length < 2 ^ 16
  | .scale event => event.text.length < 2 ^ 16
  | _ => True

def Event.isNoteOn (e : Event) : Bool :=
  match e.data with
  | .noteOn _ => true
  | _ => false

def Event.isUnknown (e : Event) : Bool :=
  match e.data with
  | .unknown _ => true
  | _ => false

theorem Event.known_iff (e : Event) : e.Known ↔ e.isUnknown = false := by
  obtain ⟨bus, offset, ppq, flags, d⟩ := e
  cases d <;> simp [Event.Known, Event.isUnknown]

theorem get_ofData {d : EventData} (h : d.WellFormed) (hknown : ∀ type, d ≠ .unknown type) :
    (YaEvent.Payload.ofData d).get = d := by
  cases d with
  | data d =>
    exact congrArg (fun b => EventData.data ⟨d.type, b⟩) (take_uint32_length h)
  | noteExpressionText d =>
    exact congrArg (fun t => EventData.noteExpressionText ⟨d.typeId, d.noteId, t⟩)
      (take_uint32_length h)
  | chord d =>
    exact congrArg (fun t => EventData.chord ⟨d.root, d.bassNote, d.mask, t⟩)
      (take_uint16_length h)
  | scale d =>
    exact congrArg (fun t => EventData.scale ⟨d.root, d.mask, t⟩) (take_uint16_length h)
  | unknown type => exact absurd rfl (hknown type)
  | _ => rfl

/-- The lists that can come about from a host's events. -/
inductive Holds (B : Bitsery) : List Event → YaEventList → Prop
  | clear (l : YaEventList) : Holds B [] l.clear
  | repopulate (l : YaEventList) (es : List Event) : Holds B es (l.repopulate es)
  | addEvent {es : List Event} {l : YaEventList} (h : Holds B es l) (e : Event) :
    Holds B (es ++ [e]) (l.addEvent e)
  | transfer {es : List Event} {l old l' : YaEventList} (h : Holds B es l)
    (ht : (YaEventList.serialize B).transfer old l = some l') : Holds B es l'

theorem Holds.eq_map {B : Bitsery} {es : List Event} {l : YaEventList} (h : Holds B es l) :
    l = ⟨es.map .ofEvent⟩ := by
  induction h with
  | clear l => rfl
  | repopulate l es => exact l.repopulate_eq es
  | addEvent _ e ih => simp [ih, YaEventList.addEvent]
  | transfer _ ht ih =>
    obtain ⟨_, rfl⟩ := Codec.transfer_eq_some.mp ht
    rw [YaEventList.serialize_put, ih]

/-- `presented` has nothing in it that is not in the source, and no additional notes. -/
structure FromSource (es presented : List Event) : Prop where
  data : ∀ e ∈ presented, ∃ s ∈ es, e.data = s.data
  notes : presented.countP Event.isNoteOn ≤ es.countP Event.isNoteOn

structure PresentsSource (es : List Event) (l : YaEventList) : Prop where
  getEvent : ∀ index e, l.getEvent index = some e → ∃ s ∈ es, e.data = s.data
  getEvents : FromSource es l.getEvents
  written : ∀ output_events, ∃ added,
    l.write_back_outputs output_events = output_events ++ added ∧ FromSource es added

theorem FromSource.sublist {es xs ys : List Event} (h : FromSource es ys) (hs : xs.Sublist ys) :
    FromSource es xs :=
  ⟨fun e he => h.data e (hs.subset he), (hs.countP_le).trans h.notes⟩

theorem countP_isNoteOn (es : List Event) :
    (YaEventList.events ⟨es.map .ofEvent⟩).countP Event.isNoteOn =
      es.countP Event.isNoteOn + es.countP Event.isUnknown := by
  induction es with
  | nil => rfl
  | cons e es ih =>
    have hhead : (YaEvent.ofEvent e).get.isNoteOn = (e.isNoteOn || e.isUnknown) ∧
        ¬ (e.isNoteOn ∧ e.isUnknown) := by
      obtain ⟨bus, offset, ppq, flags, d⟩ := e
      cases d <;> exact ⟨rfl, by simp [Event.isNoteOn, Event.isUnknown]⟩
    have hcons : YaEventList.events ⟨(e :: es).map .ofEvent⟩ =
        (YaEvent.ofEvent e).get :: YaEventList.events ⟨es.map .ofEvent⟩ := rfl
    rw [hcons, List.countP_cons, List.countP_cons, List.countP_cons, ih, hhead.1]
    cases hn : e.isNoteOn <;> cases hu : e.isUnknown
    · simp
    · simp
      omega
    · simp
      omega
    · exact absurd ⟨hn, hu⟩ hhead.2

/-- However a list came about, what it presents is from its source exactly as long as there is no
unknown event in there: each of those is a note without velocity in the end. -/
theorem presentsSource_iff {B : Bitsery} {es : List Event} {l : YaEventList} (h : Holds B es l)
    (hwf : ∀ e ∈ es, e.data.WellFormed) : PresentsSource es l ↔ ∀ e ∈ es, e.Known := by
  obtain rfl := h.eq_map
  constructor
  · intro hp
    obtain ⟨added, hadded, hsource⟩ := hp.written []
    rw [YaEventList.write_back_outputs_eq] at hadded
    obtain rfl := List.append_cancel_left hadded
    have hnotes := hsource.notes
    rw [countP_isNoteOn] at hnotes
    have hnone : es.countP Event.isUnknown = 0 := by omega
    intro e he
    rw [Event.known_iff]
    exact Bool.eq_false_iff.mpr (List.countP_eq_zero.mp hnone e he)
  · intro hknown
    have hall : FromSource es (YaEventList.events ⟨es.map .ofEvent⟩) := by
      constructor
      · intro e he
        obtain ⟨x, hx, rfl⟩ := List.mem_map.mp he
        obtain ⟨s, hs, rfl⟩ := List.mem_map.mp hx
        exact ⟨s, hs, get_ofData (hwf s hs) (hknown s hs)⟩
      · have hnone : es.countP Event.isUnknown = 0 := by
          rw [List.countP_eq_zero]
          intro e he
          simp [(Event.known_iff e).mp (hknown e he)]
        rw [countP_isNoteOn, hnone, Nat.add_zero]
    refine ⟨?_, ?_, ?_⟩
    · intro index e he
      exact hall.data e (YaEventList.getEvent_mem he)
    · rw [YaEventList.getEvents_eq]
      exact hall.sublist (List.take_sublist _ _)
    · intro out
      exact ⟨_, YaEventList.write_back_outputs_eq _ out, hall⟩

theorem presentsSource_sungChord : (∀ e ∈ sungChord, e.Known) ∧
    PresentsSource sungChord (YaEventList.repopulate ⟨[]⟩ sungChord) := by
  have hknown : ∀ e ∈ sungChord, e.Known := by simp [sungChord, Event.Known]
  refine ⟨hknown, (presentsSource_iff (.repopulate (B := .default) ⟨[]⟩ _) ?_).mpr hknown⟩
  simp [sungChord, EventData.WellFormed]

theorem unknown_becomes_note : ¬ ∀ (B : Bitsery) (es : List Event) (l : YaEventList),
    Holds B es l → (∀ e ∈ es, e.data.WellFormed) → PresentsSource es l := by
  intro h
  have hp := h .default [⟨0, 0, 0, 0, .unknown 99⟩] _ (.repopulate ⟨[]⟩ _)
    (by simp [EventData.WellFormed])
  exact absurd hp.getEvents.notes (by decide)

end Vst3
