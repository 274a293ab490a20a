import Wasivst.Bitsery

/-!
# The physical UI mapping call

`YaPhysicalUIMapList` of `serialization/vst3/physical-ui-map-list.{h,cpp}` and the two messages
of `INoteExpressionPhysicalUIMapping::getNotePhysicalUIMapping()`. The serializer of a list
element takes the element by value.
-/

set_option autoImplicit false

namespace Vst3
open InPlace

structure PhysicalUIMap where
  physicalUITypeID : UInt32
  noteExpressionTypeID : UInt32
  deriving DecidableEq, Inhabited

def PhysicalUIMap.serialize (B : Bitsery) : Codec PhysicalUIMap :=
  .byValue (.record
    [.field (·.physicalUITypeID) (fun m v => { m with physicalUITypeID := v }) B.value4b,
     .field (·.noteExpressionTypeID) (fun m v => { m with noteExpressionTypeID := v }) B.value4b])

structure YaPhysicalUIMapList where
  maps_ : List PhysicalUIMap

namespace YaPhysicalUIMapList

def ofList (list : List PhysicalUIMap) : YaPhysicalUIMapList := ⟨list⟩

/-- The bound `1 << 31` is a negative `int` that becomes a `size_t`. -/
def serialize (B : Bitsery) : Codec YaPhysicalUIMapList :=
  .record [.field (·.maps_) (fun l v => { l with maps_ := v })
    (B.container (2 ^ 64 - 2 ^ 31) default (PhysicalUIMap.serialize B))]

/-- The plugin works on the list in place and sets `noteExpressionTypeID` of entry `i` to the
`i`-th of its answers. -/
def get (l : YaPhysicalUIMapList) (answers : List PhysicalUIMap → Nat → UInt32) :
    YaPhysicalUIMapList :=
  ⟨l.maps_.mapIdx fun i m => { m with noteExpressionTypeID := answers l.maps_ i }⟩

/-- The lengths are asserted to be equal. -/
def write_back (l : YaPhysicalUIMapList) (list : List PhysicalUIMap) :
    Option (List PhysicalUIMap) :=
  if list.length = l.maps_.length then
    some (List.zipWith (fun host m => { host with noteExpressionTypeID := m.noteExpressionTypeID })
      list l.maps_)
  else none

end YaPhysicalUIMapList

structure GetNotePhysicalUIMapping where
  instance_id : UInt64
  bus_index : UInt32
  channel : UInt16
  list : YaPhysicalUIMapList

namespace GetNotePhysicalUIMapping

/-- A new object; the scalars are not initialized and are always decoded. -/
def fresh : GetNotePhysicalUIMapping := ⟨0, 0, 0, ⟨[]⟩⟩

def serialize (B : Bitsery) : Codec GetNotePhysicalUIMapping :=
  .record
    [.field (·.instance_id) (fun r v => { r with instance_id := v }) B.value8b,
     .field (·.bus_index) (fun r v => { r with bus_index := v }) B.value4b,
     .field (·.channel) (fun r v => { r with channel := v }) B.value2b]

end GetNotePhysicalUIMapping

structure GetNotePhysicalUIMappingResponse where
  result : UInt32
  list : YaPhysicalUIMapList

namespace GetNotePhysicalUIMappingResponse

def fresh : GetNotePhysicalUIMappingResponse := ⟨1, ⟨[]⟩⟩

def serialize (B : Bitsery) : Codec GetNotePhysicalUIMappingResponse :=
  .record
    [.field (·.result) (fun r v => { r with result := v }) B.value4b,
     .field (·.list) (fun r v => { r with list := v }) (YaPhysicalUIMapList.serialize B)]

end GetNotePhysicalUIMappingResponse

/-! ## The call -/

/-- The plugin: what it answers to a list, and the result of its function. -/
structure Plugin where
  answers : List PhysicalUIMap → Nat → UInt32
  result : UInt32

/-- What the call came to: the entries that the plugin saw and the list of the host after it. -/
structure Outcome where
  seen : List PhysicalUIMap
  list : List PhysicalUIMap

def getPhysicalUIMapping (B : Bitsery) (instance_id : UInt64) (busIndex : UInt32)
    (channel : UInt16) (list : List PhysicalUIMap) (plugin : Plugin) : Option Outcome := do
  let request : GetNotePhysicalUIMapping := ⟨instance_id, busIndex, channel, .ofList list⟩
  let received ← (GetNotePhysicalUIMapping.serialize B).transfer .fresh request
  let response : GetNotePhysicalUIMappingResponse :=
    ⟨plugin.result, received.list.get plugin.answers⟩
  let answered ← (GetNotePhysicalUIMappingResponse.serialize B).transfer .fresh response
  let written ← answered.list.write_back list
  return { seen := received.list.maps_, list := written }

/-- The plugin saw the entries of the host, and its answers are in the list of the host. -/
def Outcome.Answered (o : Outcome) (list : List PhysicalUIMap) (plugin : Plugin) : Prop :=
  o.seen = list ∧
    o.list = list.mapIdx fun i m => { m with noteExpressionTypeID := plugin.answers list i }

section Lost
variable (B : Bitsery)

/-- Decoding a list gives it its length, and zeros: the entries are read into temporaries. -/
theorem list_put_fresh (l : YaPhysicalUIMapList) :
    ((YaPhysicalUIMapList.serialize B).put ⟨[]⟩ l).maps_ =
      List.replicate l.maps_.length default := by
  have hput : ∀ xs, Codec.putList default (PhysicalUIMap.serialize B) [] xs =
      List.replicate xs.length default := by
    intro xs
    induction xs with
    | nil => rfl
    | cons x xs ih => simpa [Codec.putList, PhysicalUIMap.serialize, List.replicate_succ] using ih
  simp [YaPhysicalUIMapList.serialize, hput]

theorem call_eq (instance_id : UInt64) (busIndex : UInt32) (channel : UInt16)
    (list : List PhysicalUIMap) (plugin : Plugin) :
    getPhysicalUIMapping B instance_id busIndex channel list plugin =
      if list = [] then some ⟨[], []⟩ else none := by
  have hrequest : (GetNotePhysicalUIMapping.serialize B).transfer .fresh
      ⟨instance_id, busIndex, channel, .ofList list⟩ =
        some ⟨instance_id, busIndex, channel, ⟨[]⟩⟩ := by
    rw [Codec.transfer_eq_some]
    exact ⟨by simp [GetNotePhysicalUIMapping.serialize], rfl⟩
  have hresponse : (GetNotePhysicalUIMappingResponse.serialize B).transfer .fresh
      ⟨plugin.result, ⟨[]⟩⟩ = some ⟨plugin.result, ⟨[]⟩⟩ := by
    rw [Codec.transfer_eq_some]
    refine ⟨?_, rfl⟩
    simp [GetNotePhysicalUIMappingResponse.serialize, YaPhysicalUIMapList.serialize,
      Bitsery.container, B.fitsSize]
  unfold getPhysicalUIMapping
  simp only [hrequest, Option.bind_eq_bind, Option.bind_some, YaPhysicalUIMapList.get,
    List.mapIdx_nil, hresponse, YaPhysicalUIMapList.write_back, List.length_nil,
    List.length_eq_zero_iff]
  split_ifs with h
  · simp [h]
  · rfl

end Lost

/-- The plugin's answers come back exactly for the empty list. -/
theorem physicalUIMapping_answered_iff (B : Bitsery) (instance_id : UInt64) (busIndex : UInt32)
    (channel : UInt16) (list : List PhysicalUIMap) (plugin : Plugin) :
    (∃ o, getPhysicalUIMapping B instance_id busIndex channel list plugin = some o ∧
      o.Answered list plugin) ↔ list = [] := by
  rw [call_eq]
  constructor
  · rintro ⟨o, ho, _⟩
    by_contra hne
    rw [if_neg hne] at ho
    cases ho
  · rintro rfl
    exact ⟨_, if_pos rfl, rfl, rfl⟩

/-- One entry is enough to lose the call. -/
theorem physicalUIMapping_lost :
    ¬ ∀ (B : Bitsery) (instance_id : UInt64) (busIndex : UInt32) (channel : UInt16)
      (list : List PhysicalUIMap) (plugin : Plugin),
      ∃ o, getPhysicalUIMapping B instance_id busIndex channel list plugin = some o ∧
        o.Answered list plugin := by
  intro h
  obtain ⟨o, ho, _⟩ := h Bitsery.default 0 0 0 [⟨1, 0⟩] ⟨fun _ _ => 7, 0⟩
  rw [call_eq] at ho
  cases ho

end Vst3
