import Wasivst.Lib.GrowingVector
import Wasivst.Lib.Transition
import Wasivst.Vst3.IndexChecks

/-!
# Queue pointers of a cycle

A plugin adds queues to a `YaParameterChanges` and gets pointers to them, by which it adds points,
in any order. The queues lie in an `llvm::SmallVector`, which moves them when it is full.
-/

set_option autoImplicit false

namespace Vst3
open GrowingVector SignedIndex

/-! ## `llvm::SmallVector` -/

/-- The sizes of a vector of queues are `uint32_t`. -/
def MaxSize : Nat := 2 ^ 32 - 1

/-- `getNewCapacity()` for one more element; at the maximum the program is ended. -/
def getNewCapacity : Growth where
  next OldCapacity :=
    if OldCapacity < MaxSize then
      some (min (max (2 * OldCapacity + 1) (OldCapacity + 1)) MaxSize)
    else none
  larger := by
    intro c c' h
    split_ifs at h with hc
    obtain rfl := Option.some.inj h
    omega

/-! ## The calls of a plugin -/

/-- The changes of a cycle in their storage, and the pointers that the plugin has. -/
structure Filling where
  queues_ : Vec YaParamValueQueue
  returned : List Pointer

/-- The `k`th pointer that was returned is the one that a point is added by. -/
inductive Call
  | addParameterData (id : UInt32)
  | addPoint (k : Nat) (point : Point)
  deriving DecidableEq

namespace Filling

def changes (s : Filling) : YaParameterChanges := ⟨s.queues_.elems⟩

/-- `operator[]` asserts that the index is below the size, which a negative one is not. -/
def addParameterData (s : Filling) (id : UInt32) : Option Filling :=
  let index := Int32.ofNat s.queues_.elems.length
  (s.queues_.push getNewCapacity .fresh).bind fun queues_ =>
    if index < 0 then none
    else
      let p := queues_.pointer index.toNatClampNeg
      (queues_.update p (·.clear_for_parameter id)).map fun queues_ => ⟨queues_, s.returned ++ [p]⟩

/-- A point that is added by a pointer into storage that was given up is an access to a queue that
was destroyed. -/
def addPoint (s : Filling) (k : Nat) (point : Point) : Option Filling :=
  (s.returned[k]?).bind fun p =>
    (s.queues_.update p (·.addPoint point)).map fun queues_ => { s with queues_ := queues_ }

def step (s : Filling) : Call → Option Filling
  | .addParameterData id => s.addParameterData id
  | .addPoint k point => s.addPoint k point

end Filling

/-! ## What the plugin means -/

/-- The queues that there were, and then one for each parameter. -/
def meant (first : Nat) (qs : List ParamValueQueue) : Call → List ParamValueQueue
  | .addParameterData id => qs ++ [⟨id, []⟩]
  | .addPoint k point => qs.modify (first + k) fun q => { q with points := q.points ++ [point] }

/-- Points are added by pointers that were returned before. -/
def Returned : Nat → List Call → Prop
  | _, [] => True
  | n, .addParameterData _ :: calls => Returned (n + 1) calls
  | n, .addPoint k _ :: calls => k < n ∧ Returned n calls

/-- The readers of the changes find the queues. -/
structure Reports (c : YaParameterChanges) (qs : List ParamValueQueue) : Prop where
  count : c.getParameterCount.toInt = qs.length
  data : ∀ k, ∀ q ∈ qs[k]?, ∃ queue, c.getParameterData (Int32.ofNat k) = .element queue ∧
    queue.getParameterId = q.id ∧ queue.queue_ = q.points
  written_back : ∀ out, c.write_back_outputs out = out ++ qs

/-- All calls are carried out, and every point is reported for its parameter. -/
def Kept (queues_ : Vec YaParamValueQueue) (calls : List Call) : Prop :=
  ∃ s, Transition.run Filling.step ⟨queues_, []⟩ calls = some s ∧
    Reports s.changes
      (calls.foldl (meant queues_.elems.length) (YaParameterChanges.queues ⟨queues_.elems⟩))

/-- No queue gets a point after it was moved, and the queues can be counted. -/
def Settled (capacity first : Nat) : Nat → List Call → Prop
  | n, [] => n < 2 ^ 31
  | n, .addParameterData _ :: calls => Settled capacity first (n + 1) calls
  | n, .addPoint k _ :: calls =>
    Unmoved getNewCapacity capacity (first + k) n ∧ Settled capacity first n calls

theorem settled_lt {capacity first n : Nat} {calls : List Call}
    (h : Settled capacity first n calls) : n < 2 ^ 31 := by
  induction calls generalizing n with
  | nil => exact h
  | cons call calls ih =>
    cases call with
    | addParameterData id =>
      have hmore := ih h
      omega
    | addPoint k point => exact ih h.2

/-! ## Reports -/

theorem queues_addParameterData (c : YaParameterChanges) (first : Nat) (id : UInt32) :
    (c.addParameterData id).1.queues = meant first c.queues (.addParameterData id) := by
  simp [YaParameterChanges.addParameterData, YaParameterChanges.queues, meant,
    YaParamValueQueue.clear_for_parameter]

theorem queues_addPoint (c : YaParameterChanges) (first k : Nat) (point : Point) :
    (c.addPoint (first + k) point).queues = meant first c.queues (.addPoint k point) := by
  apply List.ext_getElem?
  intro i
  simp only [YaParameterChanges.addPoint, YaParameterChanges.queues, meant, List.getElem?_map,
    List.getElem?_modify]
  by_cases hi : first + k = i
  · simp only [hi, if_true]
    cases c.queues_[i]? <;> rfl
  · simp only [hi, if_false]
    cases c.queues_[i]? <;> rfl

/-- The readers are right as long as the queues can be counted. -/
theorem reports_iff (c : YaParameterChanges) : Reports c c.queues ↔ c.queues_.length < 2 ^ 31 := by
  have hlen : c.queues.length = c.queues_.length := List.length_map _
  constructor
  · intro h
    have hcount := h.count
    have hlt := Int32.toInt_lt c.getParameterCount
    omega
  · intro hsmall
    refine ⟨?_, ?_, c.write_back_outputs_eq⟩
    · rw [YaParameterChanges.getParameterCount, Int32.toInt_ofNat_of_lt hsmall, hlen]
    · intro k q hq
      rw [Option.mem_def, YaParameterChanges.queues, List.getElem?_map] at hq
      obtain ⟨queue, hqueue, rfl⟩ := Option.map_eq_some_iff.mp hq
      obtain ⟨hk, _⟩ := List.getElem?_eq_some_iff.mp hqueue
      have hk31 : k < 2 ^ 31 := by omega
      have hneg : ¬ Int32.ofNat k < 0 := cast_nonneg hk31
      have hfinds := checkedAbove_finds_iff () c.queues_ (Int32.ofNat k)
      rw [if_neg hneg, elementAt_ofNat hk31, hqueue] at hfinds
      exact ⟨queue, hfinds.mpr (.inl hsmall), rfl, rfl⟩

/-! ## The calls one by one -/

/-- What holds between two calls, if there were `first` queues in a block of `capacity`. -/
structure Pointing (capacity first : Nat) (s : Filling) : Prop where
  grown : s.queues_.From getNewCapacity capacity
  counted : first + s.returned.length = s.queues_.elems.length
  tracked : ∀ k p, s.returned[k]? = some p →
    p.index = first + k ∧ Tracks getNewCapacity capacity s.queues_ p

variable {capacity first : Nat} {s : Filling}

/-- The block has room for one more queue, or there is a larger one. -/
theorem room_or_larger (v : Vec YaParamValueQueue) (hsmall : v.elems.length < 2 ^ 31) :
    v.elems.length < v.capacity ∨ (getNewCapacity.next v.capacity).isSome := by
  by_cases hlt : v.elems.length < v.capacity
  · exact .inl hlt
  · have hfull : v.capacity < MaxSize := by
      unfold MaxSize
      omega
    exact .inr (by simp [getNewCapacity, hfull])

theorem addParameterData_of_lt (h : Pointing capacity first s) (id : UInt32)
    (hsmall : s.queues_.elems.length < 2 ^ 31) :
    ∃ s', s.addParameterData id = some s' ∧ Pointing capacity first s' ∧
      s'.changes = (s.changes.addParameterData id).1 ∧
      s'.returned.length = s.returned.length + 1 := by
  obtain ⟨pushed, hpush⟩ := Vec.push_isSome (a := YaParamValueQueue.fresh)
    (room_or_larger s.queues_ hsmall)
  have helems := (Vec.push_eq_some hpush).1
  have hnew := Tracks.appended capacity hpush
  obtain ⟨updated, hupdate⟩ : ∃ v, pushed.update (pushed.pointer s.queues_.elems.length)
      (·.clear_for_parameter id) = some v := by
    unfold Vec.update
    rw [if_pos ⟨rfl, hnew.inside⟩]
    exact ⟨_, rfl⟩
  obtain ⟨_, _, _, hupdated⟩ := Vec.update_eq_some.mp hupdate
  have hadded : updated.elems = s.queues_.elems ++ [YaParamValueQueue.fresh.clear_for_parameter id] := by
    rw [hupdated, helems]
    exact YaParameterChanges.modify_last _ _ _
  refine ⟨⟨updated, s.returned ++ [pushed.pointer s.queues_.elems.length]⟩, ?_, ?_, ?_, ?_⟩
  · unfold Filling.addParameterData
    simp only [hpush, Option.bind_some, Int32.toNatClampNeg_ofNat_of_lt hsmall, hupdate,
      Option.map_some, if_neg (cast_nonneg hsmall)]
  · refine ⟨(h.grown.push hpush).update hupdate, ?_, ?_⟩
    · have hcounted := h.counted
      simp only [hadded, List.length_append, List.length_singleton]
      omega
    · intro k p hp
      rw [List.getElem?_append] at hp
      split_ifs at hp with hk
      · obtain ⟨hindex, hp⟩ := h.tracked k p hp
        exact ⟨hindex, (hp.push h.grown hpush).update hupdate⟩
      · obtain ⟨hlast, rfl⟩ := List.getElem?_eq_some_iff.mp hp
        have hcounted := h.counted
        rw [List.length_singleton] at hlast
        rw [List.getElem_singleton]
        refine ⟨?_, hnew.update hupdate⟩
        change s.queues_.elems.length = first + k
        omega
  · exact congrArg YaParameterChanges.mk hadded
  · rw [List.length_append, List.length_singleton]

/-- A point is added if and only if the queue did not move. -/
theorem addPoint_eq_some_iff (h : Pointing capacity first s) {k : Nat} (point : Point)
    (hk : k < s.returned.length) :
    (∃ s', s.addPoint k point = some s') ↔
      Unmoved getNewCapacity capacity (first + k) s.queues_.elems.length := by
  obtain ⟨p, hp⟩ : ∃ p, s.returned[k]? = some p := ⟨_, List.getElem?_eq_getElem hk⟩
  obtain ⟨hindex, htracks⟩ := h.tracked k p hp
  rw [← hindex, ← htracks.good]
  unfold Filling.addPoint
  simp only [hp, Option.bind_some]
  constructor
  · rintro ⟨s', hs'⟩
    obtain ⟨v, hv, _⟩ := Option.map_eq_some_iff.mp hs'
    exact (Vec.update_eq_some.mp hv).1
  · intro hgood
    unfold Vec.update
    rw [if_pos hgood]
    exact ⟨_, rfl⟩

theorem addPoint_eq_some (h : Pointing capacity first s) {s' : Filling} {k : Nat} {point : Point}
    (hs' : s.addPoint k point = some s') :
    Pointing capacity first s' ∧ s'.changes = s.changes.addPoint (first + k) point ∧
      s'.returned = s.returned ∧ s'.queues_.elems.length = s.queues_.elems.length := by
  unfold Filling.addPoint at hs'
  obtain ⟨p, hp, hmap⟩ := Option.bind_eq_some_iff.mp hs'
  obtain ⟨v, hv, rfl⟩ := Option.map_eq_some_iff.mp hmap
  obtain ⟨_, _, _, helems⟩ := Vec.update_eq_some.mp hv
  have hlen : v.elems.length = s.queues_.elems.length := by rw [helems, List.length_modify]
  obtain ⟨hindex, _⟩ := h.tracked k p hp
  refine ⟨⟨h.grown.update hv, h.counted.trans hlen.symm, ?_⟩, ?_, rfl, hlen⟩
  · intro j q hq
    obtain ⟨hj, hq⟩ := h.tracked j q hq
    exact ⟨hj, hq.update hv⟩
  · change YaParameterChanges.mk v.elems = _
    rw [helems, hindex]
    rfl

/-! ## Runs -/

theorem meant_length_le (first : Nat) (calls : List Call) (qs : List ParamValueQueue) :
    qs.length ≤ (calls.foldl (meant first) qs).length := by
  induction calls generalizing qs with
  | nil => exact Nat.le_refl _
  | cons call calls ih =>
    have hstep : qs.length ≤ (meant first qs call).length := by
      cases call <;> simp [meant]
    exact hstep.trans (ih (meant first qs call))

theorem reports_length_lt {c : YaParameterChanges} {qs : List ParamValueQueue} (h : Reports c qs) :
    qs.length < 2 ^ 31 := by
  have hcount := h.count
  have hlt := Int32.toInt_lt c.getParameterCount
  omega

theorem reported_iff (h : Pointing capacity first s) {calls : List Call}
    (hcalls : Returned s.returned.length calls) :
    (∃ s', Transition.run Filling.step s calls = some s' ∧
        Reports s'.changes (calls.foldl (meant first) s.changes.queues)) ↔
      Settled capacity first s.queues_.elems.length calls := by
  induction calls generalizing s with
  | nil =>
    constructor
    · rintro ⟨_, hrun, hreports⟩
      obtain rfl := Option.some.inj hrun
      exact (reports_iff s.changes).mp hreports
    · intro hsmall
      exact ⟨s, rfl, (reports_iff s.changes).mpr hsmall⟩
  | cons call calls ih =>
    by_cases hsmall : s.queues_.elems.length < 2 ^ 31
    · cases call with
      | addParameterData id =>
        obtain ⟨t, ht, hpointing, hchanges, hreturned⟩ := addParameterData_of_lt h id hsmall
        have hqueues := hchanges ▸ queues_addParameterData s.changes first id
        have hlen : t.queues_.elems.length = s.queues_.elems.length + 1 := by
          have hnow := hpointing.counted
          have hbefore := h.counted
          omega
        have hrest := ih hpointing (hreturned ▸ hcalls)
        rw [hqueues, hlen] at hrest
        refine Iff.trans ?_ hrest
        simp [Transition.run, Filling.step, ht]
      | addPoint k point =>
        have hiff := addPoint_eq_some_iff h point hcalls.1
        constructor
        · rintro ⟨s', hrun, hreports⟩
          obtain ⟨t, ht, hrun⟩ := Transition.run_cons_eq_some.mp hrun
          obtain ⟨hpointing, hchanges, hreturned, hlen⟩ := addPoint_eq_some h ht
          have hrest := ih hpointing (hreturned ▸ hcalls.2)
          rw [hchanges, queues_addPoint, hlen] at hrest
          exact ⟨hiff.mp ⟨t, ht⟩, hrest.mp ⟨s', hrun, hreports⟩⟩
        · rintro ⟨hunmoved, hsettled⟩
          obtain ⟨t, ht⟩ := hiff.mpr hunmoved
          obtain ⟨hpointing, hchanges, hreturned, hlen⟩ := addPoint_eq_some h ht
          have hrest := ih hpointing (hreturned ▸ hcalls.2)
          rw [hchanges, queues_addPoint, hlen] at hrest
          obtain ⟨s', hrun, hreports⟩ := hrest.mpr hsettled
          exact ⟨s', Transition.run_cons_eq_some.mpr ⟨t, ht, hrun⟩, hreports⟩
    · constructor
      · rintro ⟨s', _, hreports⟩
        have hlt := reports_length_lt hreports
        have hle := meant_length_le first (call :: calls) s.changes.queues
        have hlen : s.changes.queues.length = s.queues_.elems.length := List.length_map _
        omega
      · intro hsettled
        exact absurd (settled_lt hsettled) hsmall

/-- The points are kept in exactly the runs in which no queue gets a point after its vector grew. -/
theorem points_kept_iff (queues_ : Vec YaParamValueQueue) (calls : List Call)
    (hcalls : Returned 0 calls) : Kept queues_ calls ↔
      Settled queues_.capacity queues_.elems.length queues_.elems.length calls := by
  have hstart : Pointing queues_.capacity queues_.elems.length ⟨queues_, []⟩ :=
    ⟨Vec.From.refl queues_, rfl, fun _ _ => nofun⟩
  exact reported_iff hstart hcalls

/-- The storage that a new object has inside it. -/
def inlineQueues : Vec YaParamValueQueue := ⟨0, 16, [], Nat.zero_le 16⟩

theorem one_point_kept : Returned 0 [.addParameterData 7, .addPoint 0 (0, 0)] ∧
    (Kept inlineQueues [.addParameterData 7, .addPoint 0 (0, 0)] ↔
      Settled 16 0 0 [.addParameterData 7, .addPoint 0 (0, 0)]) := by
  have hcalls : Returned 0 [.addParameterData 7, .addPoint 0 (0, 0)] := ⟨Nat.zero_lt_one, trivial⟩
  exact ⟨hcalls, points_kept_iff inlineQueues _ hcalls⟩

/-- Seventeen queues, and then a point for the first one. -/
def seventeenQueues : List Call :=
  (List.range 17).map (fun i => .addParameterData (UInt32.ofNat i)) ++ [.addPoint 0 (0, 0)]

theorem point_by_moved_queue_lost : Returned 0 seventeenQueues ∧
    ¬ Kept inlineQueues seventeenQueues := by
  refine ⟨?_, ?_⟩
  · simp [seventeenQueues, Returned, List.range_succ]
  · rintro ⟨s, hrun, _⟩
    have hnone : Transition.run Filling.step ⟨inlineQueues, []⟩ seventeenQueues = none := by
      decide
    exact absurd (hnone.symm.trans hrun) nofun

end Vst3
