import Wasivst.Bitsery

/-!
# VST2 event lists

`DynamicVstEvents` of `serialization/vst2.{h,cpp}` over the x86-64 layout of the structs in
`vestige/aeffectx.h`. A `VstEvent` is 32 bytes. A `VstMidiSysExEvent` has `type` at 0, `byteSize`
at 4, `deltaFrames` at 8, `flags` at 12, `dumpBytes` at 16, `reserved1` at 24, `sysexDump` at 32
and `reserved2` at 40.
-/

set_option autoImplicit false

namespace Vst2
open InPlace LittleEndian

def kVstSysExType : UInt32 := 6

structure VstEvent where
  dump : Vector UInt8 32

namespace VstEvent

/-- The `int` at an offset of the event. -/
def int (e : VstEvent) (offset : Nat) : UInt32 := toU32 ((e.dump.toList.drop offset).take 4)

def type (e : VstEvent) : UInt32 := e.int 0

def byteSize (e : VstEvent) : UInt32 := e.int 4

def dumpBytes (e : VstEvent) : UInt32 := e.int 16

/-- `type`, `byteSize`, `deltaFrames`, `flags` and `dumpBytes`. -/
def header (e : VstEvent) : List UInt32 := [e.int 0, e.int 4, e.int 8, e.int 12, e.int 16]

def serialize (B : Bitsery) : Codec VstEvent :=
  .record [.field (·.dump) (fun e v => { e with dump := v }) (B.array1b 32)]

end VstEvent

/-- An event of the host: its first 32 bytes and the memory that `sysexDump` points to. -/
structure HostEvent where
  event : VstEvent
  sysexDump : Nat → UInt8

/-- The first `n` bytes of that memory. -/
def HostEvent.bytes (h : HostEvent) (n : Nat) : List UInt8 := (List.range n).map h.sysexDump

/-- `VstEvents`, whose `numEvents` is an `int`. -/
structure VstEvents where
  events : List HostEvent
  numEvents_lt : events.length < 2 ^ 31

def max_buffer_size : Nat := 2 ^ 16

def max_midi_events : Nat := max_buffer_size

structure DynamicVstEvents where
  events_ : List VstEvent
  sysex_data_ : List (UInt64 × List UInt8)

namespace DynamicVstEvents

/-- The payloads of the constructor's loop from index `i` on. `std::string` refuses a negative
length by an exception. -/
def sysexData : Nat → List HostEvent → Option (List (UInt64 × List UInt8))
  | _, [] => some []
  | i, h :: hs =>
    if h.event.type = kVstSysExType then
      if h.event.byteSize.toNat < 2 ^ 31 then
        (sysexData (i + 1) hs).map fun ds =>
          (UInt64.ofNat i, h.bytes h.event.byteSize.toNat) :: ds
      else none
    else sysexData (i + 1) hs

def ofVstEvents (c_events : VstEvents) : Option DynamicVstEvents :=
  (sysexData 0 c_events.events).map fun sysex_data_ =>
    { events_ := c_events.events.map (·.event), sysex_data_ }

def serialize (B : Bitsery) : Codec DynamicVstEvents :=
  .record
    [.field (·.events_) (fun d v => { d with events_ := v })
      (B.container max_midi_events ⟨Vector.replicate 32 0⟩ (VstEvent.serialize B)),
     .field (·.sysex_data_) (fun d v => { d with sysex_data_ := v })
      (B.container max_midi_events (0, [])
        (.record
          [.field (·.1) (fun p v => (v, p.2)) B.value8b,
           .field (·.2) (fun p v => (p.1, v)) (B.text1b max_buffer_size)]))]

theorem serialize_put (B : Bitsery) (old d : DynamicVstEvents) :
    (serialize B).put old d = d := by
  have hevent : (VstEvent.serialize B).Overwrites := fun _ _ => rfl
  have hpair : (Codec.record
      [.field (·.1) (fun p v => (v, p.2)) B.value8b,
       .field (·.2) (fun p v => (p.1, v)) (B.text1b max_buffer_size)] :
      Codec (UInt64 × List UInt8)).Overwrites := by
    intro old x
    simp
  simp only [serialize, Codec.record_cons_put, Codec.record_nil_put, Codec.field_put,
    Bitsery.container_put, Codec.putList_eq _ _ hevent, Codec.putList_eq _ _ hpair]

theorem serialize_fits (B : Bitsery) (d : DynamicVstEvents) :
    (serialize B).fits d ↔ d.events_.length ≤ max_midi_events ∧
      d.sysex_data_.length ≤ max_midi_events ∧
      ∀ p ∈ d.sysex_data_, p.2.length ≤ max_buffer_size := by
  have hmax : max_buffer_size < 2 ^ 30 := by decide
  have hevents : max_midi_events < 2 ^ 30 := by decide
  simp [serialize, VstEvent.serialize, B.container_fits _ _ hevents, B.text1b_fits hmax]

/-! ## `as_c_events` -/

/-- Memory from the start of the storage of `events_` on. -/
abbrev Memory := Nat → UInt8

/-- The slots of `events_` one after the other, and what comes behind them. -/
def layout (d : DynamicVstEvents) (beyond : Memory) : Memory := fun j =>
  match d.events_[j / 32]? with
  | some e => e.dump.get ⟨j % 32, Nat.mod_lt j (by decide)⟩
  | none => beyond j

/-- A pointer written through `VstMidiSysExEvent&`. -/
structure Store where
  event_idx : Nat
  offset : Nat
  pointer : UInt64

/-- The slot of the event that the store is for contains all of its eight bytes. -/
def Store.Inside (s : Store) : Prop :=
  32 * s.event_idx ≤ s.offset ∧ s.offset + 8 ≤ 32 * (s.event_idx + 1)

def store (mem : Memory) (s : Store) : Memory := fun j =>
  if s.offset ≤ j ∧ j < s.offset + 8 then (ofU64 s.pointer).getD (j - s.offset) 0 else mem j

/-- `data k` is the address of the `k`-th payload. -/
def stores (d : DynamicVstEvents) (data : Nat → UInt64) : List Store :=
  d.sysex_data_.zipIdx.map fun p => ⟨p.1.1.toNat, 32 * p.1.1.toNat + 32, data p.2⟩

/-- The result: an offset in the storage of `events_` for every event. -/
structure CEvents where
  numEvents : Nat
  events : List Nat

def as_c_events (d : DynamicVstEvents) (data : Nat → UInt64) (mem : Memory) : CEvents × Memory :=
  (⟨d.events_.length, (List.range d.events_.length).map (32 * ·)⟩,
    (d.stores data).foldl store mem)

/-- `n` further calls on what earlier ones left. -/
def callAgain (d : DynamicVstEvents) (data : Nat → UInt64) : Nat → CEvents × Memory →
    CEvents × Memory
  | 0, r => r
  | n + 1, r => callAgain d data n (d.as_c_events data r.2)

def readEvent (mem : Memory) (offset : Nat) : VstEvent :=
  ⟨Vector.ofFn fun k : Fin 32 => mem (offset + k)⟩

def readPointer (mem : Memory) (offset : Nat) : UInt64 :=
  toU64 ((List.range 8).map fun k => mem (offset + k))

/-- What the receiver finds in the list that `as_c_events()` returned, for the list of the host. -/
structure Survives (host : VstEvents) (d : DynamicVstEvents) (data : Nat → UInt64)
    (r : CEvents × Memory) : Prop where
  count : r.1.numEvents = host.events.length ∧ r.1.events.length = host.events.length
  midi : ∀ (i : Nat) (h : HostEvent), host.events[i]? = some h → h.event.type ≠ kVstSysExType →
    ∃ p : Nat, r.1.events[i]? = some p ∧ readEvent r.2 p = h.event
  sysex : ∀ (i : Nat) (h : HostEvent), host.events[i]? = some h → h.event.type = kVstSysExType →
    ∃ p : Nat, r.1.events[i]? = some p ∧ (readEvent r.2 p).header = h.event.header ∧
      ∃ (k : Nat) (s : UInt64 × List UInt8), d.sysex_data_[k]? = some s ∧
        readPointer r.2 (p + 32) = data k ∧ s.2 = h.bytes h.event.dumpBytes.toNat
  inside : ∀ s ∈ d.stores data, s.Inside

/-- The list of the host is read, sent, decoded into some object and rebuilt `n + 1` times. -/
def Bridged (B : Bitsery) (into : DynamicVstEvents) (host : VstEvents) (data : Nat → UInt64)
    (beyond : Memory) (n : Nat) : Prop :=
  ∃ d d', ofVstEvents host = some d ∧ (serialize B).transfer into d = some d' ∧
    Survives host d' data (d'.callAgain data n (d'.as_c_events data (d'.layout beyond)))

/-- The pointer starts where the slot of its event ends. -/
theorem not_inside {d : DynamicVstEvents} {data : Nat → UInt64} {s : Store}
    (h : s ∈ d.stores data) : ¬ s.Inside := by
  obtain ⟨p, _, rfl⟩ := List.mem_map.mp h
  unfold Store.Inside
  simp only
  omega

theorem stores_eq_nil_iff (d : DynamicVstEvents) (data : Nat → UInt64) :
    d.stores data = [] ↔ d.sysex_data_ = [] := by
  simp [stores]

/-- The loop collects nothing exactly from a list without SysEx events. -/
theorem sysexData_eq_nil_iff (i : Nat) (hs : List HostEvent) :
    sysexData i hs = some [] ↔ ∀ h ∈ hs, h.event.type ≠ kVstSysExType := by
  induction hs generalizing i with
  | nil => simp [sysexData]
  | cons h hs ih =>
    unfold sysexData
    split_ifs with htype hsize
    · simp [htype]
    · simp [htype]
    · simp [htype, ih]

theorem readEvent_layout (d : DynamicVstEvents) (beyond : Memory) {i : Nat} {e : VstEvent}
    (h : d.events_[i]? = some e) : readEvent (d.layout beyond) (32 * i) = e := by
  have hbyte : ∀ k : Fin 32, d.layout beyond (32 * i + k) = e.dump.get k := by
    intro k
    have hdiv : (32 * i + k) / 32 = i := by omega
    have hmod : (32 * i + k) % 32 = k := by omega
    simp only [layout, hdiv, h, hmod]
  have hdump : (Vector.ofFn fun k : Fin 32 => d.layout beyond (32 * i + k)) = e.dump := by
    apply Vector.ext
    intro k hk
    rw [Vector.getElem_ofFn]
    exact hbyte ⟨k, hk⟩
  unfold readEvent
  rw [hdump]

/-- Without payloads the calls write nothing. -/
theorem callAgain_of_no_stores (d : DynamicVstEvents) (data : Nat → UInt64)
    (h : d.stores data = []) (n : Nat) (mem : Memory) :
    d.callAgain data n (d.as_c_events data mem) = ((d.as_c_events data mem).1, mem) := by
  have hcall : ∀ m, d.as_c_events data m = ((d.as_c_events data mem).1, m) := by
    intro m
    simp [as_c_events, h]
  induction n with
  | zero => exact hcall mem
  | succ n ih =>
    unfold callAgain
    rw [hcall mem]
    exact ih

theorem survives_of_no_sysex {host : VstEvents} {d : DynamicVstEvents}
    (hd : ofVstEvents host = some d) (hs : ∀ h ∈ host.events, h.event.type ≠ kVstSysExType)
    (data : Nat → UInt64) (beyond : Memory) (n : Nat) :
    Survives host d data (d.callAgain data n (d.as_c_events data (d.layout beyond))) := by
  have hnil := (sysexData_eq_nil_iff 0 host.events).mpr hs
  have heq : d = ⟨host.events.map (·.event), []⟩ := by
    simpa [ofVstEvents, hnil, eq_comm] using hd
  have hstores : d.stores data = [] := (stores_eq_nil_iff d data).mpr (by rw [heq])
  have hlen : d.events_.length = host.events.length := by simp [heq]
  rw [callAgain_of_no_stores d data hstores]
  constructor
  · simp [as_c_events, hlen]
  · intro i h hi _
    have hlt := (List.getElem?_eq_some_iff.mp hi).1
    refine ⟨32 * i, ?_, ?_⟩
    · simp [as_c_events, hlen, hlt]
    · apply readEvent_layout
      simp [heq, hi]
  · intro i h hi htype
    exact absurd htype (hs h (List.mem_of_getElem? hi))
  · intro s hmem
    rw [hstores] at hmem
    cases hmem

theorem bridged_of (B : Bitsery) (into : DynamicVstEvents) {host : VstEvents}
    (data : Nat → UInt64) (beyond : Memory) (n : Nat)
    (hlen : host.events.length ≤ max_midi_events)
    (hs : ∀ h ∈ host.events, h.event.type ≠ kVstSysExType) :
    Bridged B into host data beyond n := by
  have hnil := (sysexData_eq_nil_iff 0 host.events).mpr hs
  have hd : ofVstEvents host = some ⟨host.events.map (·.event), []⟩ := by
    simp [ofVstEvents, hnil]
  refine ⟨_, _, hd, ?_, survives_of_no_sysex hd hs data beyond n⟩
  rw [Codec.transfer_eq_some, serialize_put, serialize_fits]
  simp [hlen]

theorem no_sysex_of_bridged {B : Bitsery} {into : DynamicVstEvents} {host : VstEvents}
    {data : Nat → UInt64} {beyond : Memory} {n : Nat} (h : Bridged B into host data beyond n) :
    host.events.length ≤ max_midi_events ∧ ∀ h ∈ host.events, h.event.type ≠ kVstSysExType := by
  obtain ⟨d, d', hd, ht, hsurv⟩ := h
  obtain ⟨hfits, rfl⟩ := Codec.transfer_eq_some.mp ht
  rw [serialize_put] at hsurv
  obtain ⟨ds, hds, rfl⟩ := Option.map_eq_some_iff.mp hd
  constructor
  · simpa using ((serialize_fits B _).mp hfits).1
  · apply (sysexData_eq_nil_iff 0 host.events).mp
    have hstores : stores ⟨host.events.map (·.event), ds⟩ data = [] := by
      apply List.eq_nil_iff_forall_not_mem.mpr
      intro s hmem
      exact not_inside hmem (hsurv.inside s hmem)
    have hnil : ds = [] := (stores_eq_nil_iff _ data).mp hstores
    rw [hds, hnil]

/-- A list survives the bridge exactly when it has no SysEx event and fits the container: the
fix-up of every SysEx event is a store behind the slot of that event. -/
theorem vstEvents_bridged_iff (B : Bitsery) (into : DynamicVstEvents) (host : VstEvents)
    (data : Nat → UInt64) (beyond : Memory) (n : Nat) :
    Bridged B into host data beyond n ↔ host.events.length ≤ max_midi_events ∧
      ∀ h ∈ host.events, h.event.type ≠ kVstSysExType :=
  ⟨no_sysex_of_bridged, fun h => bridged_of B into data beyond n h.1 h.2⟩

/-- A SysEx event with an empty payload and nothing else. -/
def oneSysEx : VstEvents where
  events := [⟨⟨(Vector.replicate 32 0).set 0 6⟩, fun _ => 0⟩]
  numEvents_lt := by decide

theorem sysex_not_bridged :
    ¬ ∀ (B : Bitsery) (into : DynamicVstEvents) (host : VstEvents) (data : Nat → UInt64)
      (beyond : Memory) (n : Nat), Bridged B into host data beyond n := by
  intro h
  have hb := h Bitsery.default ⟨[], []⟩ oneSysEx (fun _ => 0) (fun _ => 0) 0
  have htype := (no_sysex_of_bridged hb).2 _ List.mem_cons_self
  exact htype (by decide)

/-! ## Where the pointers go -/

theorem store_outside (mem : Memory) (s : Store) {j : Nat}
    (h : j < s.offset ∨ s.offset + 8 ≤ j) : store mem s j = mem j := by
  unfold store
  rw [if_neg (by omega)]

theorem foldl_store_outside (ss : List Store) (mem : Memory) {j : Nat}
    (h : ∀ s ∈ ss, j < s.offset ∨ s.offset + 8 ≤ j) : ss.foldl store mem j = mem j := by
  induction ss generalizing mem with
  | nil => rfl
  | cons s ss ih =>
    rw [List.foldl_cons, ih _ fun s' hs' => h s' (List.mem_cons_of_mem s hs')]
    exact store_outside mem s (h s List.mem_cons_self)

/-- The first eight bytes of the slot after a SysEx event become the address of its payload,
whatever the event in that slot was. -/
theorem next_event_overwritten (d : DynamicVstEvents) (data : Nat → UInt64) (mem : Memory)
    {before after : List (UInt64 × List UInt8)} {p : UInt64 × List UInt8}
    (hd : d.sysex_data_ = before ++ p :: after) (hp : ∀ q ∈ after, q.1.toNat ≠ p.1.toNat)
    {k : Nat} (hk : k < 8) :
    (d.as_c_events data mem).2 (32 * (p.1.toNat + 1) + k) =
      (ofU64 (data before.length)).getD k 0 := by
  have hstores : d.stores data = before.zipIdx.map (fun p => (⟨p.1.1.toNat, 32 * p.1.1.toNat + 32,
      data p.2⟩ : Store)) ++ ⟨p.1.toNat, 32 * p.1.toNat + 32, data before.length⟩ ::
      (after.zipIdx (before.length + 1)).map fun p => ⟨p.1.1.toNat, 32 * p.1.1.toNat + 32,
        data p.2⟩ := by
    simp [stores, hd, List.zipIdx_append]
  have hsub : 32 * (p.1.toNat + 1) + k - (32 * p.1.toNat + 32) = k := by omega
  simp only [as_c_events, hstores, List.foldl_append, List.foldl_cons]
  rw [foldl_store_outside]
  · simp only [store]
    rw [if_pos (by omega), hsub]
  · -- the later stores belong to other slots
    intro s hs
    obtain ⟨q, hq, rfl⟩ := List.mem_map.mp hs
    have hne := hp q.1 (List.fst_mem_of_mem_zipIdx hq)
    simp only
    omega

end DynamicVstEvents
end Vst2
