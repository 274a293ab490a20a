import Wasivst.Bitsery

/-!
# VST3 parameter changes

`YaParamValueQueue` and `YaParameterChanges` of `serialization/vst3`. The interfaces of a host
are the queues that they hold: an `IParameterChanges` is a list of `ParamValueQueue`, and its
`addParameterData()` appends an empty one.
-/

set_option autoImplicit false

namespace Vst3
open InPlace

/-- A sample offset and a value. -/
abbrev Point := UInt32 × UInt64

structure ParamValueQueue where
  id : UInt32
  points : List Point
  deriving DecidableEq

structure YaParamValueQueue where
  parameter_id_ : UInt32
  queue_ : List Point
  deriving DecidableEq

namespace YaParamValueQueue

/-- The id of a new object is not initialized and is always set. -/
def fresh : YaParamValueQueue := ⟨0, []⟩

def clear_for_parameter (_ : YaParamValueQueue) (parameter_id : UInt32) : YaParamValueQueue :=
  ⟨parameter_id, []⟩

/-- Every point of the host is copied over what the resized queue held. -/
def repopulate (_ : YaParamValueQueue) (original_queue : ParamValueQueue) : YaParamValueQueue :=
  ⟨original_queue.id, original_queue.points⟩

def addPoint (q : YaParamValueQueue) (point : Point) : YaParamValueQueue :=
  { q with queue_ := q.queue_ ++ [point] }

/-- The host's queue with the points added to it. -/
def write_back_outputs (q : YaParamValueQueue) (output_queue : ParamValueQueue) :
    ParamValueQueue :=
  q.queue_.foldl (fun out point => { out with points := out.points ++ [point] }) output_queue

def serialize (B : Bitsery) : Codec YaParamValueQueue :=
  .record
    [.field (·.parameter_id_) (fun q v => { q with parameter_id_ := v }) B.value4b,
     .field (·.queue_) (fun q v => { q with queue_ := v })
       (B.container (2 ^ 16) (0, 0)
         (.record
           [.field (·.1) (fun p v => (v, p.2)) B.value4b,
            .field (·.2) (fun p v => (p.1, v)) B.value8b]))]

theorem write_back_outputs_eq (q : YaParamValueQueue) (out : ParamValueQueue) :
    q.write_back_outputs out = { out with points := out.points ++ q.queue_ } := by
  obtain ⟨id, points⟩ := q
  unfold write_back_outputs
  induction points generalizing out with
  | nil => simp
  | cons p ps ih =>
    rw [List.foldl_cons, ih]
    simp

@[simp] theorem serialize_put (B : Bitsery) (old q : YaParamValueQueue) :
    (serialize B).put old q = q := by
  have hpoint : (Codec.record
      [.field (·.1) (fun p v => (v, p.2)) B.value4b,
       .field (·.2) (fun p v => (p.1, v)) B.value8b] : Codec Point).Overwrites := fun _ _ => rfl
  simp only [serialize, Codec.record_cons_put, Codec.record_nil_put, Codec.field_put,
    Bitsery.container_put, Bitsery.value4b_put, Codec.putList_eq _ _ hpoint]

theorem serialize_fits (B : Bitsery) (q : YaParamValueQueue) :
    (serialize B).fits q ↔ q.queue_.length ≤ 2 ^ 16 := by
  have hmax : 65536 < 2 ^ 30 := by decide
  simp [serialize, B.container_fits _ _ hmax]

end YaParamValueQueue

structure YaParameterChanges where
  queues_ : List YaParamValueQueue
  deriving DecidableEq

namespace YaParameterChanges

def clear (_ : YaParameterChanges) : YaParameterChanges := ⟨[]⟩

/-- Queues that are left from an earlier cycle are reused. -/
def repopulate (c : YaParameterChanges) (original_queues : List ParamValueQueue) :
    YaParameterChanges :=
  ⟨original_queues.mapIdx fun i q => (c.queues_.getD i .fresh).repopulate q⟩

/-- The changes with one more queue, and the index of that queue. -/
def addParameterData (c : YaParameterChanges) (id : UInt32) : YaParameterChanges × Nat :=
  (⟨c.queues_ ++ [YaParamValueQueue.fresh.clear_for_parameter id]⟩, c.queues_.length)

/-- A call of `addPoint()` on the queue with an index. -/
def addPoint (c : YaParameterChanges) (index : Nat) (point : Point) : YaParameterChanges :=
  ⟨c.queues_.modify index (·.addPoint point)⟩

/-- A queue is requested and then gets its points. -/
def addQueue (c : YaParameterChanges) (q : ParamValueQueue) : YaParameterChanges :=
  let (added, index) := c.addParameterData q.id
  q.points.foldl (fun c point => c.addPoint index point) added

/-- The host's queues with the queues added to them. -/
def write_back_outputs (c : YaParameterChanges) (output_queues : List ParamValueQueue) :
    List ParamValueQueue :=
  c.queues_.foldl
    (fun out q => out ++ [q.write_back_outputs ⟨q.parameter_id_, []⟩]) output_queues

/-- The queues that a reader of the interface finds. -/
def queues (c : YaParameterChanges) : List ParamValueQueue :=
  c.queues_.map fun q => ⟨q.parameter_id_, q.queue_⟩

def serialize (B : Bitsery) : Codec YaParameterChanges :=
  .record [.field (·.queues_) (fun c v => { c with queues_ := v })
    (B.container (2 ^ 16) .fresh (YaParamValueQueue.serialize B))]

/-- The queue of an `IParamValueQueue`. -/
def ofQueue (q : ParamValueQueue) : YaParamValueQueue := ⟨q.id, q.points⟩

theorem repopulate_eq (c : YaParameterChanges) (qs : List ParamValueQueue) :
    c.repopulate qs = ⟨qs.map ofQueue⟩ := by
  have hqueues : qs.mapIdx (fun i q => (c.queues_.getD i .fresh).repopulate q) =
      qs.map ofQueue := by
    rw [List.mapIdx_eq_iff]
    intro i
    rw [List.getElem?_map]
    rfl
  exact congrArg YaParameterChanges.mk hqueues

theorem modify_last (qs : List YaParamValueQueue) (q : YaParamValueQueue)
    (f : YaParamValueQueue → YaParamValueQueue) :
    (qs ++ [q]).modify qs.length f = qs ++ [f q] := by
  induction qs with
  | nil => rfl
  | cons _ _ ih => simpa using ih

theorem foldl_addPoint (qs : List YaParamValueQueue) (q : YaParamValueQueue)
    (points : List Point) :
    points.foldl (fun c point => addPoint c qs.length point) ⟨qs ++ [q]⟩ =
      ⟨qs ++ [⟨q.parameter_id_, q.queue_ ++ points⟩]⟩ := by
  induction points generalizing q with
  | nil => simp
  | cons p ps ih =>
    rw [List.foldl_cons, addPoint, modify_last, ih]
    simp [YaParamValueQueue.addPoint]

theorem addQueue_eq (c : YaParameterChanges) (q : ParamValueQueue) :
    c.addQueue q = ⟨c.queues_ ++ [ofQueue q]⟩ := by
  exact foldl_addPoint c.queues_ (YaParamValueQueue.fresh.clear_for_parameter q.id) q.points

theorem write_back_outputs_eq (c : YaParameterChanges) (out : List ParamValueQueue) :
    c.write_back_outputs out = out ++ c.queues := by
  obtain ⟨qs⟩ := c
  unfold write_back_outputs queues
  induction qs generalizing out with
  | nil => simp
  | cons q qs ih =>
    rw [List.foldl_cons, ih, YaParamValueQueue.write_back_outputs_eq]
    simp

@[simp] theorem queues_map_ofQueue (qs : List ParamValueQueue) : queues ⟨qs.map ofQueue⟩ = qs := by
  unfold queues
  rw [List.map_map]
  exact List.map_id qs

@[simp] theorem serialize_put (B : Bitsery) (old c : YaParameterChanges) :
    (serialize B).put old c = c := by
  have hqueue : (YaParamValueQueue.serialize B).Overwrites := YaParamValueQueue.serialize_put B
  simp only [serialize, Codec.record_cons_put, Codec.record_nil_put, Codec.field_put,
    Bitsery.container_put, Codec.putList_eq _ _ hqueue]

/-- At most `2 ^ 16` queues of at most `2 ^ 16` points. -/
def Bounded (c : YaParameterChanges) : Prop :=
  c.queues_.length ≤ 2 ^ 16 ∧ ∀ q ∈ c.queues_, q.queue_.length ≤ 2 ^ 16

theorem serialize_fits (B : Bitsery) (c : YaParameterChanges) :
    (serialize B).fits c ↔ c.Bounded := by
  have hfits : ∀ xs, (B.container 65536 .fresh (YaParamValueQueue.serialize B)).fits xs =
      (decide (xs.length ≤ 65536) && xs.all (YaParamValueQueue.serialize B).fits) :=
    B.container_fits _ _ (by decide)
  simp [serialize, hfits, YaParamValueQueue.serialize_fits, Bounded]

end YaParameterChanges
end Vst3
