import Wasivst.Vst3.EventTransfer
import Wasivst.Vst3.ParameterChanges
import Wasivst.Vst3.PluginFactory

/-!
# Index checks of the VST3 lists

Six accessors take an `int32` index and check it by hand. Five of them check both of its ends,
`YaParameterChanges::getParameterData` does not.
-/

set_option autoImplicit false

namespace Vst3
open SignedIndex

/-- `YaEventList::getEvent`, with the access that it makes. -/
def YaEventList.readEvent (l : YaEventList) (index : Int32) : Access TResult Event :=
  (checked .kInvalidArgument l.events_ index).map (·.get)

namespace YaParamValueQueue

def getParameterId (q : YaParamValueQueue) : UInt32 := q.parameter_id_

def getPointCount (q : YaParamValueQueue) : Int32 := Int32.ofNat q.queue_.length

def getPoint (q : YaParamValueQueue) (index : Int32) : Access TResult Point :=
  if 0 ≤ index ∧ index < Int32.ofNat q.queue_.length then subscript q.queue_ index
  else .failure .kInvalidArgument

theorem getPoint_eq (q : YaParamValueQueue) (index : Int32) :
    q.getPoint index = checked .kInvalidArgument q.queue_ index := by
  unfold getPoint checked
  by_cases hin : 0 ≤ index ∧ index < Int32.ofNat q.queue_.length
  · have hout : ¬ (index < 0 ∨ Int32.ofNat q.queue_.length ≤ index) :=
      not_or.mpr ⟨Int32.not_lt.mpr hin.1, Int32.not_le.mpr hin.2⟩
    rw [if_pos hin, if_neg hout]
  · have hout : index < 0 ∨ Int32.ofNat q.queue_.length ≤ index := by
      rcases not_and_or.mp hin with h | h
      · exact .inl (Int32.not_le.mp h)
      · exact .inr (Int32.not_lt.mp h)
    rw [if_neg hin, if_pos hout]

end YaParamValueQueue

namespace YaParameterChanges

def getParameterCount (c : YaParameterChanges) : Int32 := Int32.ofNat c.queues_.length

/-- The failure is the null pointer. -/
def getParameterData (c : YaParameterChanges) (index : Int32) : Access Unit YaParamValueQueue :=
  checkedAbove () c.queues_ index

end YaParameterChanges

/-! ## The checks together -/

/-- Every accessor finds the element that is there, or fails where there is none. -/
structure Confined (l : YaEventList) (c : YaParameterChanges) (q : YaParamValueQueue)
    (p : YaPluginFactory3) (index : Int32) : Prop where
  event : (l.readEvent index).Finds (elementAt l.events index)
  queue : (c.getParameterData index).Finds (elementAt c.queues_ index)
  point : (q.getPoint index).Finds (elementAt q.queue_ index)
  info : (p.getClassInfo index).Finds (elementAt p.arguments_.class_infos_1 index).join
  info2 : (p.getClassInfo2 index).Finds (elementAt p.arguments_.class_infos_2 index).join
  infoUnicode :
    (p.getClassInfoUnicode index).Finds (elementAt p.arguments_.class_infos_unicode index).join

/-- The cast of the size excludes no recorded info. -/
def InfosCounted {α : Type} (infos : List (Option α)) (index : Int32) : Prop :=
  Counted infos.length index ∨ (elementAt infos index).join = none

/-- No list is so long that the cast of its size excludes the index. -/
structure AllCounted (l : YaEventList) (c : YaParameterChanges) (q : YaParamValueQueue)
    (p : YaPluginFactory3) (index : Int32) : Prop where
  events : Counted l.events_.length index
  queues : Counted c.queues_.length index
  points : Counted q.queue_.length index
  infos : InfosCounted p.arguments_.class_infos_1 index
  infos2 : InfosCounted p.arguments_.class_infos_2 index
  infosUnicode : InfosCounted p.arguments_.class_infos_unicode index

theorem recorded_finds_of_neg {α : Type} (infos : List (Option α)) {index : Int32}
    (hneg : index < 0) : (recorded TResult.kInvalidArgument .kResultFalse infos index).Finds
      (elementAt infos index).join :=
  (recorded_finds_iff _ _ infos index).mpr (.inl hneg)

theorem recorded_finds_iff_of_nonneg {α : Type} (infos : List (Option α)) {index : Int32}
    (hneg : ¬ index < 0) : (recorded TResult.kInvalidArgument .kResultFalse infos index).Finds
      (elementAt infos index).join ↔ InfosCounted infos index :=
  (recorded_finds_iff _ _ infos index).trans (or_iff_right hneg)

theorem readEvent_finds_iff (l : YaEventList) (index : Int32) :
    (l.readEvent index).Finds (elementAt l.events index) ↔
      index < 0 ∨ Counted l.events_.length index := by
  have hlen : l.events.length = l.events_.length := List.length_map _
  rw [YaEventList.readEvent, ← checked_map, ← hlen]
  exact checked_finds_iff _ l.events index

/-- A negative index gets past the check for the queues, unless their number is large. -/
theorem indices_confined_iff (l : YaEventList) (c : YaParameterChanges) (q : YaParamValueQueue)
    (p : YaPluginFactory3) (index : Int32) : Confined l c q p index ↔
      if index < 0 then Int32.ofNat c.queues_.length ≤ index else AllCounted l c q p index := by
  have hevent := readEvent_finds_iff l index
  have hqueue := checkedAbove_finds_iff () c.queues_ index
  have hpoint := q.getPoint_eq index ▸ checked_finds_iff TResult.kInvalidArgument q.queue_ index
  by_cases hneg : index < 0
  · rw [if_pos hneg] at hqueue ⊢
    constructor
    · intro h
      exact hqueue.mp h.queue
    · intro h
      exact
        { event := hevent.mpr (.inl hneg)
          queue := hqueue.mpr h
          point := hpoint.mpr (.inl hneg)
          info := recorded_finds_of_neg _ hneg
          info2 := recorded_finds_of_neg _ hneg
          infoUnicode := recorded_finds_of_neg _ hneg }
  · rw [if_neg hneg] at hqueue ⊢
    have hevent := hevent.trans (or_iff_right hneg)
    have hpoint := hpoint.trans (or_iff_right hneg)
    constructor
    · intro h
      exact
        { events := hevent.mp h.event
          queues := hqueue.mp h.queue
          points := hpoint.mp h.point
          infos := (recorded_finds_iff_of_nonneg _ hneg).mp h.info
          infos2 := (recorded_finds_iff_of_nonneg _ hneg).mp h.info2
          infosUnicode := (recorded_finds_iff_of_nonneg _ hneg).mp h.infoUnicode }
    · intro h
      exact
        { event := hevent.mpr h.events
          queue := hqueue.mpr h.queues
          point := hpoint.mpr h.points
          info := (recorded_finds_iff_of_nonneg _ hneg).mpr h.infos
          info2 := (recorded_finds_iff_of_nonneg _ hneg).mpr h.infos2
          infoUnicode := (recorded_finds_iff_of_nonneg _ hneg).mpr h.infosUnicode }

/-- One queue, and the index `-1`. -/
theorem negative_index_escapes : ¬ ∀ (l : YaEventList) (c : YaParameterChanges)
    (q : YaParamValueQueue) (p : YaPluginFactory3) (index : Int32), Confined l c q p index := by
  intro h
  have hqueue := (h ⟨[]⟩ ⟨[.fresh]⟩ .fresh ⟨.fresh⟩ (-1)).queue
  have hout : YaParameterChanges.getParameterData ⟨[.fresh]⟩ (-1) = .outside := by decide
  rw [hout] at hqueue
  exact absurd hqueue (by simp [elementAt, Access.Finds])

end Vst3
