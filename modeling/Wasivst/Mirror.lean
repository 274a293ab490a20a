import Wasivst.Bitsery

/-!
# Structs that are sent as other objects

A struct of a plugin interface points at what it does not own. An object that owns everything is
made from it, sent, and turned into such a struct again on the other side. A `Mirror` is such an
object; those of optional structs and of lists of them are put together here.
-/

set_option autoImplicit false

open InPlace

structure Mirror (N R : Type) where
  ofNative : N → Option R
  serialize : Codec R
  reconstruct : R → N

namespace Mirror
variable {N R : Type} (m : Mirror N R)

/-- `old` is what the object that is decoded into holds before. -/
def bridge (old : R) (native : N) : Option N := do
  let record ← m.ofNative native
  let received ← m.serialize.transfer old record
  some (m.reconstruct received)

/-- What can be sent, and what it is on the other side. -/
structure Restores (Sendable : N → Prop) (restored : N → N) : Prop where
  overwrites : m.serialize.Overwrites
  sendable_iff : ∀ native,
    Sendable native ↔ ∃ record, m.ofNative native = some record ∧ m.serialize.fits record
  reconstruct : ∀ native record, m.ofNative native = some record →
    m.reconstruct record = restored native

variable {m} {Sendable : N → Prop} {restored : N → N}

theorem Restores.bridge_iff (h : m.Restores Sendable restored) {old : R} {native result : N} :
    m.bridge old native = some result ↔ Sendable native ∧ result = restored native := by
  unfold bridge
  rw [h.sendable_iff]
  constructor
  · intro hbridge
    obtain ⟨record, hrecord, hrest⟩ := Option.bind_eq_some_iff.mp hbridge
    obtain ⟨received, htransfer, hresult⟩ := Option.bind_eq_some_iff.mp hrest
    obtain ⟨hfits, rfl⟩ := Codec.transfer_eq_some.mp htransfer
    rw [h.overwrites, h.reconstruct native record hrecord] at hresult
    exact ⟨⟨record, hrecord, hfits⟩, (Option.some.inj hresult).symm⟩
  · intro hbridge
    obtain ⟨⟨record, hrecord, hfits⟩, rfl⟩ := hbridge
    have htransfer : m.serialize.transfer old record = some record :=
      Codec.transfer_eq_some.mpr ⟨hfits, (h.overwrites old record).symm⟩
    rw [hrecord, Option.bind_eq_bind, Option.bind_some, htransfer, Option.bind_some,
      h.reconstruct native record hrecord]

/-! ## Optional structs and lists -/

section Containers
variable (B : Bitsery) (m) (max : Nat) (fresh : R)

def optional : Mirror (Option N) (Option R) where
  ofNative := Option.mapM m.ofNative
  serialize := B.inPlaceOptional fresh false m.serialize
  reconstruct := Option.map m.reconstruct

def list : Mirror (List N) (List R) where
  ofNative := List.mapM m.ofNative
  serialize := B.container max fresh m.serialize
  reconstruct := List.map m.reconstruct

variable {m max}

theorem Restores.optional (h : m.Restores Sendable restored) :
    (m.optional B fresh).Restores (fun native => ∀ x ∈ native, Sendable x)
      (Option.map restored) := by
  constructor
  case overwrites => exact B.inPlaceOptional_put_of_overwrites fresh false h.overwrites
  case sendable_iff =>
    intro native
    cases native with
    | none => exact iff_of_true nofun ⟨none, rfl, rfl⟩
    | some x =>
      constructor
      · intro hx
        obtain ⟨record, hrecord, hfits⟩ := (h.sendable_iff x).mp (hx x rfl)
        exact ⟨some record, congrArg (Option.map some) hrecord, hfits⟩
      · intro hx y hy
        obtain rfl := Option.some.inj hy
        obtain ⟨_, hmap, hfits⟩ := hx
        obtain ⟨record, hrecord, rfl⟩ := Option.map_eq_some_iff.mp hmap
        exact (h.sendable_iff x).mpr ⟨record, hrecord, hfits⟩
  case reconstruct =>
    intro native record hrecord
    cases native with
    | none =>
      obtain rfl := Option.some.inj hrecord
      rfl
    | some x =>
      obtain ⟨r, hr, rfl⟩ := Option.map_eq_some_iff.mp hrecord
      exact congrArg some (h.reconstruct x r hr)

theorem mapM_cons_eq_some {x : N} {natives : List N} {records : List R} :
    (x :: natives).mapM m.ofNative = some records ↔ ∃ r rs, m.ofNative x = some r ∧
      natives.mapM m.ofNative = some rs ∧ records = r :: rs := by
  rw [List.mapM_cons]
  constructor
  · intro h
    obtain ⟨r, hr, htail⟩ := Option.bind_eq_some_iff.mp h
    obtain ⟨rs, hrs, hcons⟩ := Option.bind_eq_some_iff.mp htail
    exact ⟨r, rs, hr, hrs, (Option.some.inj hcons).symm⟩
  · intro h
    obtain ⟨r, rs, hr, hrs, rfl⟩ := h
    rw [hr, hrs]
    rfl

theorem length_of_mapM {natives : List N} {records : List R}
    (h : natives.mapM m.ofNative = some records) : records.length = natives.length := by
  induction natives generalizing records with
  | nil =>
    obtain rfl := Option.some.inj h
    rfl
  | cons x natives ih =>
    obtain ⟨r, rs, _, hrs, rfl⟩ := mapM_cons_eq_some.mp h
    exact congrArg (· + 1) (ih hrs)

theorem Restores.forall_sendable_iff (h : m.Restores Sendable restored) (natives : List N) :
    (∀ x ∈ natives, Sendable x) ↔
      ∃ records, natives.mapM m.ofNative = some records ∧ records.all m.serialize.fits := by
  induction natives with
  | nil => exact iff_of_true nofun ⟨[], rfl, rfl⟩
  | cons x natives ih =>
    rw [List.forall_mem_cons, ih, h.sendable_iff]
    constructor
    · intro hsendable
      obtain ⟨⟨r, hr, hfits⟩, rs, hrs, hall⟩ := hsendable
      refine ⟨r :: rs, mapM_cons_eq_some.mpr ⟨r, rs, hr, hrs, rfl⟩, ?_⟩
      rw [List.all_cons, hfits, hall]
      rfl
    · intro hsendable
      obtain ⟨_, hmap, hall⟩ := hsendable
      obtain ⟨r, rs, hr, hrs, rfl⟩ := mapM_cons_eq_some.mp hmap
      rw [List.all_cons, Bool.and_eq_true] at hall
      exact ⟨⟨r, hr, hall.1⟩, rs, hrs, hall.2⟩

theorem Restores.map_reconstruct (h : m.Restores Sendable restored) {natives : List N}
    {records : List R} (hrecords : natives.mapM m.ofNative = some records) :
    records.map m.reconstruct = natives.map restored := by
  induction natives generalizing records with
  | nil =>
    obtain rfl := Option.some.inj hrecords
    rfl
  | cons x natives ih =>
    obtain ⟨r, rs, hr, hrs, rfl⟩ := mapM_cons_eq_some.mp hrecords
    rw [List.map_cons, List.map_cons, h.reconstruct x r hr, ih hrs]

theorem Restores.list (h : m.Restores Sendable restored) (hmax : max < 2 ^ 30) :
    (m.list B max fresh).Restores
      (fun natives => natives.length ≤ max ∧ ∀ x ∈ natives, Sendable x) (List.map restored) := by
  constructor
  case overwrites =>
    intro olds records
    exact Codec.putList_eq fresh m.serialize h.overwrites olds records
  case sendable_iff =>
    intro natives
    rw [h.forall_sendable_iff]
    constructor
    · intro hsendable
      obtain ⟨hlen, records, hrecords, hall⟩ := hsendable
      refine ⟨records, hrecords, ?_⟩
      change (B.container max fresh m.serialize).fits records
      rw [B.container_fits fresh _ hmax, length_of_mapM hrecords, decide_eq_true hlen, hall]
      rfl
    · intro hsendable
      obtain ⟨records, hrecords, hfits⟩ := hsendable
      change (B.container max fresh m.serialize).fits records at hfits
      rw [B.container_fits fresh _ hmax, Bool.and_eq_true, decide_eq_true_eq,
        length_of_mapM hrecords] at hfits
      exact ⟨hfits.1, records, hrecords, hfits.2⟩
  case reconstruct =>
    intro natives records hrecords
    exact h.map_reconstruct hrecords

end Containers
end Mirror
