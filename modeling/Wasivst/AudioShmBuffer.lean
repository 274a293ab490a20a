import Wasivst.Lib.Ownership
import Wasivst.Lib.Transition
import Wasivst.AudioShm

/-!
# `AudioShmBuffer`

The mappings of `audio-shm.cpp` over the lives of any number of objects, on a ledger of what the
process has mapped and opened. The system calls succeed, and the kernel answers with any address
and any descriptor that are not in use.
-/

set_option autoImplicit false

open Transition Ownership

/-! ## System calls -/

/-- `memory` has the shared object and the offset that a byte shows, `descriptors` and `names` the
object. The objects are numbered in the order in which they were created. A length is taken to the
byte, where the kernel rounds each of them up to the same whole pages. -/
structure Ledger where
  memory : Nat → Option (Nat × Nat)
  descriptors : Nat → Option Nat
  names : List UInt8 → Option Nat
  created : List (List UInt8)
  /-- Something was released that was not held. -/
  released_twice : Bool

namespace Ledger

/-- With `O_CREAT`. -/
def shm_open (l : Ledger) (name : List UInt8) (fd : Nat) : Option Ledger :=
  if name ≠ [] ∧ l.descriptors fd = none then
    match l.names name with
    | some object =>
      some { l with descriptors := Function.update l.descriptors fd (some object) }
    | none =>
      some { l with
        descriptors := Function.update l.descriptors fd (some l.created.length)
        names := Function.update l.names name (some l.created.length)
        created := l.created ++ [name] }
  else none

/-- Maps `length` bytes of the object, at an address where nothing is. -/
def place (l : Ledger) (object offset address length : Nat) : Option Ledger :=
  if address ≠ 0 ∧ ∀ i < length, l.memory (address + i) = none then
    some { l with memory := fill l.memory address length fun i => (object, offset + i) }
  else none

def mmap (l : Ledger) (fd address length : Nat) : Option Ledger :=
  (l.descriptors fd).bind fun object => l.place object 0 address length

/-- With an old size of zero the old mapping stays and there are two. -/
def mremap (l : Ledger) (old old_size address length : Nat) : Option Ledger :=
  (l.memory old).bind fun (object, offset) =>
    if ∀ i < old_size, l.memory (old + i) = some (object, offset + i) then
      { l with memory := clear l.memory old old_size }.place object offset address length
    else none

/-- A length of zero is an error that nobody looks at. -/
def munmap (l : Ledger) (address length : Nat) : Ledger :=
  { l with
    memory := clear l.memory address length
    released_twice :=
      l.released_twice || !decide (∀ i < length, (l.memory (address + i)).isSome) }

def close (l : Ledger) (fd : Nat) : Ledger :=
  { l with
    descriptors := Function.update l.descriptors fd none
    released_twice := l.released_twice || (l.descriptors fd).isNone }

def shm_unlink (l : Ledger) (name : List UInt8) : Ledger :=
  { l with names := Function.update l.names name none }

end Ledger

/-! ## The class -/

/-- `shm_bytes_` is an address, 0 for a null pointer. -/
structure AudioShmBuffer where
  config_ : AudioShmBufferConfig
  shm_fd_ : Nat
  shm_bytes_ : Nat
  shm_size_ : Nat
  is_moved_ : Bool

namespace AudioShmBuffer

def setup_mapping (b : AudioShmBuffer) (l : Ledger) (address : Nat) :
    Option (AudioShmBuffer × Ledger) :=
  if 0 < b.config_.size then
    (if b.shm_bytes_ ≠ 0 then
        l.mremap b.shm_bytes_ b.shm_size_ address b.config_.size.toNat
      else l.mmap b.shm_fd_ address b.config_.size.toNat).map fun l' =>
      ({ b with shm_bytes_ := address, shm_size_ := b.config_.size.toNat }, l')
  else some ({ b with shm_size_ := b.config_.size.toNat }, l)

/-- `AudioShmBuffer(const Config&)`. -/
def construct (config : AudioShmBufferConfig) (l : Ledger) (fd address : Nat) :
    Option (AudioShmBuffer × Ledger) :=
  (l.shm_open config.name fd).bind fun l' => setup_mapping ⟨config, fd, 0, 0, false⟩ l' address

/-- `~AudioShmBuffer()`. -/
def destroy (b : AudioShmBuffer) (l : Ledger) : Ledger :=
  if b.is_moved_ then l
  else ((l.munmap b.shm_bytes_ b.config_.size.toNat).close b.shm_fd_).shm_unlink b.config_.name

/-- What `std::move()` leaves: a string and vectors without elements, and all the plain values. -/
def moved (o : AudioShmBuffer) : AudioShmBuffer :=
  { o with config_ := ⟨[], o.config_.size, [], []⟩, is_moved_ := true }

/-- `operator=(AudioShmBuffer&&)`. -/
def assign (b o : AudioShmBuffer) : AudioShmBuffer :=
  { b with
    config_ := o.config_
    shm_fd_ := o.shm_fd_
    shm_bytes_ := o.shm_bytes_
    shm_size_ := o.shm_size_ }

/-- It throws before it changes anything when the name is another one. -/
def resize (b : AudioShmBuffer) (l : Ledger) (new_config : AudioShmBufferConfig)
    (address : Nat) : Option (AudioShmBuffer × Ledger) :=
  if new_config.name ≠ b.config_.name then some (b, l)
  else setup_mapping { b with config_ := new_config } l address

structure State where
  objects : Nat → Option AudioShmBuffer
  ledger : Ledger

def init : State := ⟨fun _ => none, ⟨fun _ => none, fun _ => none, fun _ => none, [], false⟩⟩

/-- With the descriptor and the address that the kernel answers where it is asked for them. -/
inductive Action
  | construct (id : Nat) (config : AudioShmBufferConfig) (fd address : Nat)
  | resize (id : Nat) (new_config : AudioShmBufferConfig) (address : Nat)
  | moveConstruct (id source : Nat)
  | moveAssign (id source : Nat)
  | destroy (id : Nat)

def step (s : State) : Action → Option State
  | .construct id config fd address =>
    if s.objects id = none then
      (construct config s.ledger fd address).map fun (b, l) =>
        ⟨Function.update s.objects id (some b), l⟩
    else none
  | .resize id new_config address =>
    (s.objects id).bind fun b => (b.resize s.ledger new_config address).map fun (b', l) =>
      ⟨Function.update s.objects id (some b'), l⟩
  | .moveConstruct id source =>
    if s.objects id = none then
      (s.objects source).map fun o =>
        let objects := Function.update s.objects source (some o.moved)
        ⟨Function.update objects id (some { o with is_moved_ := false }), s.ledger⟩
    else none
  | .moveAssign id source =>
    (s.objects id).bind fun b => (s.objects source).map fun o =>
      let objects := Function.update s.objects id (some (b.assign o))
      ⟨Function.update objects source (some o.moved), s.ledger⟩
  | .destroy id =>
    (s.objects id).map fun b => ⟨Function.update s.objects id none, b.destroy s.ledger⟩

/-! ## Ownership -/

/-- The objects that release what they have: those that have not been moved from. -/
def owners (objects : Nat → Option AudioShmBuffer) : Nat → Option AudioShmBuffer :=
  fun id => (objects id).filter fun b => !b.is_moved_

def HasDescriptor (owner : Option AudioShmBuffer) (fd : Nat) : Prop :=
  ∃ b, owner = some b ∧ fd = b.shm_fd_

def HasByte (owner : Option AudioShmBuffer) (x : Nat) : Prop :=
  ∃ b, owner = some b ∧ Regions.Inside b.config_.size.toNat b.shm_bytes_ x

/-- The object under the buffer's name is open, and its first bytes are mapped in their order. -/
def MapsOwn (b : AudioShmBuffer) (l : Ledger) : Prop :=
  ∃ object, l.descriptors b.shm_fd_ = some object ∧ l.created[object]? = some b.config_.name ∧
    ∀ i < b.config_.size.toNat, l.memory (b.shm_bytes_ + i) = some (object, i)

/-- Every owner maps its bytes, nothing else is mapped or open, no two share anything. -/
structure Owned (owners : Nat → Option AudioShmBuffer) (l : Ledger) : Prop where
  mapsOwn : ∀ {id b}, owners id = some b → b.MapsOwn l
  descriptors : Divided l.descriptors (HasDescriptor ∘ owners)
  memory : Divided l.memory (HasByte ∘ owners)
  released : l.released_twice = false

theorem owners_eq_some {objects : Nat → Option AudioShmBuffer} {id : Nat} {b : AudioShmBuffer} :
    owners objects id = some b ↔ objects id = some b ∧ b.is_moved_ = false := by
  simp [owners, Option.filter_eq_some_iff]

theorem owners_update (objects : Nat → Option AudioShmBuffer) (id : Nat)
    (o : Option AudioShmBuffer) : owners (Function.update objects id o) =
      Function.update (owners objects) id (o.filter fun b => !b.is_moved_) := by
  funext m
  by_cases hm : m = id
  · subst hm
    simp [owners]
  · simp [owners, Function.update_of_ne hm]

@[simp] theorem hasDescriptor_none : HasDescriptor none = fun _ => False := by
  funext fd
  simp [HasDescriptor]

@[simp] theorem hasDescriptor_some (b : AudioShmBuffer) :
    HasDescriptor (some b) = (· = b.shm_fd_) := by
  funext fd
  simp [HasDescriptor]

@[simp] theorem hasByte_none : HasByte none = fun _ => False := by
  funext x
  simp [HasByte]

@[simp] theorem hasByte_some (b : AudioShmBuffer) :
    HasByte (some b) = Regions.Inside b.config_.size.toNat b.shm_bytes_ := by
  funext x
  simp [HasByte]

/-! ## What the invariant is kept by -/

section Exchange
variable {owners : Nat → Option AudioShmBuffer} {l l' : Ledger} {id : Nat}

/-- Nothing that an object needs is taken away by the exchange of another one. -/
theorem MapsOwn.of_exchange {b : AudioShmBuffer} {o : Option AudioShmBuffer} (h : Owned owners l)
    (hd : Exchanged l.descriptors l'.descriptors (HasDescriptor (owners id)) (HasDescriptor o))
    (hm : Exchanged l.memory l'.memory (HasByte (owners id)) (HasByte o))
    (hc : ∀ {k : Nat} {n : List UInt8}, l.created[k]? = some n → l'.created[k]? = some n)
    {other : Nat} (hother : other ≠ id)
    (hb : owners other = some b) : b.MapsOwn l' := by
  obtain ⟨object, hobject, hname, hbytes⟩ := h.mapsOwn hb
  refine ⟨object, ?_, hc hname, ?_⟩
  · have hkey : (HasDescriptor ∘ owners) other b.shm_fd_ := ⟨b, hb, rfl⟩
    exact (h.descriptors.other hd hother hkey).2.trans hobject
  · intro i hi
    have hkey : (HasByte ∘ owners) other (b.shm_bytes_ + i) :=
      ⟨b, hb, inside_iff.mpr ⟨i, hi, rfl⟩⟩
    exact (h.memory.other hm hother hkey).2.trans (hbytes i hi)

theorem Owned.exchange {o : Option AudioShmBuffer} (h : Owned owners l)
    (hd : Exchanged l.descriptors l'.descriptors (HasDescriptor (owners id)) (HasDescriptor o))
    (hm : Exchanged l.memory l'.memory (HasByte (owners id)) (HasByte o))
    (hc : ∀ {k : Nat} {n : List UInt8}, l.created[k]? = some n → l'.created[k]? = some n)
    (ho : ∀ b, o = some b → b.MapsOwn l')
    (hr : l'.released_twice = false) : Owned (Function.update owners id o) l' where
  mapsOwn := by
    intro other b hb
    refine of_update_eq_some (fun _ b => b.MapsOwn l') ?_ ho other b hb
    intro other b hother hb
    exact MapsOwn.of_exchange h hd hm hc hother hb
  descriptors := by
    rw [Function.comp_update]
    exact h.descriptors.exchange hd
  memory := by
    rw [Function.comp_update]
    exact h.memory.exchange hm
  released := hr

theorem Owned.transfer {source : Nat} {o : AudioShmBuffer} (h : Owned owners l)
    (ho : owners source = some o) (hid : owners id = none) :
    Owned (Function.update (Function.update owners source none) id (some o)) l := by
  have hne : source ≠ id := by
    rintro rfl
    rw [ho] at hid
    contradiction
  constructor
  · intro other b hb
    refine of_update_eq_some (fun _ b => b.MapsOwn l) ?_ ?_ other b hb
    · intro other c _ hc
      exact of_update_eq_some (fun _ b => b.MapsOwn l) (fun _ _ _ hc => h.mapsOwn hc) (by simp)
        other c hc
    · intro c hc
      exact Option.some.inj hc ▸ h.mapsOwn ho
  · have ht := h.descriptors.transfer hne (by simp [hid])
    simpa only [Function.comp_update, hasDescriptor_none, ← ho, Function.comp_apply] using ht
  · have ht := h.memory.transfer hne (by simp [hid])
    simpa only [Function.comp_update, hasByte_none, ← ho, Function.comp_apply] using ht
  · exact h.released

end Exchange

/-! ## `setup_mapping()` -/

theorem place_eq_some {l l' : Ledger} {object offset address length : Nat} :
    l.place object offset address length = some l' ↔
      (address ≠ 0 ∧ ∀ i < length, l.memory (address + i) = none) ∧
      l' = { l with memory := fill l.memory address length fun i => (object, offset + i) } := by
  rw [Ledger.place, Option.ite_none_right_eq_some, Option.some.injEq, eq_comm (a := l')]

theorem mmap_eq_some {l l' : Ledger} {fd address length : Nat} :
    l.mmap fd address length = some l' ↔
      ∃ object, l.descriptors fd = some object ∧ l.place object 0 address length = some l' :=
  Option.bind_eq_some_iff

theorem mremap_eq_some {l l' : Ledger} {old old_size address length : Nat} :
    l.mremap old old_size address length = some l' ↔
      ∃ object offset, l.memory old = some (object, offset) ∧
        (∀ i < old_size, l.memory (old + i) = some (object, offset + i)) ∧
        { l with memory := clear l.memory old old_size }.place object offset address length =
          some l' := by
  simp only [Ledger.mremap, Option.bind_eq_some_iff, Option.ite_none_right_eq_some, Prod.exists]

/-- `shm_size_` is the size that is mapped, and there is an address exactly if there are bytes. -/
structure Sized (b : AudioShmBuffer) : Prop where
  shm_size : b.shm_size_ = b.config_.size.toNat
  shm_bytes : b.shm_bytes_ = 0 ↔ b.config_.size = 0

theorem toNat_pos {size : UInt32} : 0 < size ↔ 0 < size.toNat := UInt32.lt_iff_toNat_lt

section Setup
variable {b b' : AudioShmBuffer} {l l' : Ledger} {config : AudioShmBufferConfig} {address : Nat}

theorem setup_mapping_zero (h : config.size = 0) :
    setup_mapping { b with config_ := config } l address =
      some ({ b with config_ := config, shm_size_ := 0 }, l) := by
  simp [setup_mapping, h]

theorem setup_mapping_cases (hpos : 0 < config.size)
    (h : setup_mapping { b with config_ := config } l address = some (b', l')) :
    b' = { b with config_ := config, shm_bytes_ := address, shm_size_ := config.size.toNat } ∧
      (b.shm_bytes_ = 0 ∧ l.mmap b.shm_fd_ address config.size.toNat = some l' ∨
        b.shm_bytes_ ≠ 0 ∧
          l.mremap b.shm_bytes_ b.shm_size_ address config.size.toNat = some l') := by
  unfold setup_mapping at h
  rw [if_pos hpos] at h
  obtain ⟨l₁, hmap, heq⟩ := Option.map_eq_some_iff.mp h
  obtain ⟨rfl, rfl⟩ := Prod.mk.inj heq
  refine ⟨rfl, ?_⟩
  by_cases hnull : b.shm_bytes_ = 0
  · exact Or.inl ⟨hnull, by simpa [hnull] using hmap⟩
  · exact Or.inr ⟨hnull, by simpa [hnull] using hmap⟩

/-- The old bytes of the object are given up for the new ones. -/
theorem setup_mapping_spec (hb : b.MapsOwn l) (hsized : b.Sized) (hpos : 0 < config.size)
    (h : setup_mapping { b with config_ := config } l address = some (b', l')) :
    address ≠ 0 ∧
      b' = { b with config_ := config, shm_bytes_ := address, shm_size_ := config.size.toNat } ∧
      ∃ object, l.descriptors b.shm_fd_ = some object ∧
        (∀ i < config.size.toNat,
          clear l.memory b.shm_bytes_ b.config_.size.toNat (address + i) = none) ∧
        l' = { l with
          memory := fill (clear l.memory b.shm_bytes_ b.config_.size.toNat) address
            config.size.toNat fun i => (object, i) } := by
  obtain ⟨object, hobject, _, hbytes⟩ := hb
  obtain ⟨rfl, ⟨hnull, hmap⟩ | ⟨hnull, hmap⟩⟩ := setup_mapping_cases hpos h
  · have hzero : b.config_.size.toNat = 0 := by simp [hsized.shm_bytes.mp hnull]
    obtain ⟨object', hobject', hplace⟩ := mmap_eq_some.mp hmap
    obtain ⟨⟨hne, hfree⟩, rfl⟩ := place_eq_some.mp hplace
    refine ⟨hne, rfl, object', hobject', ?_, ?_⟩
    · rw [hzero, clear_zero]
      exact hfree
    · simp only [hzero, clear_zero, Nat.zero_add]
  · have hsize : 0 < b.config_.size.toNat := by
      rw [← toNat_pos, UInt32.pos_iff_ne_zero]
      exact fun hz => hnull (hsized.shm_bytes.mpr hz)
    rw [hsized.shm_size] at hmap
    obtain ⟨object', offset, hold, _, hplace⟩ := mremap_eq_some.mp hmap
    obtain ⟨rfl, rfl⟩ : object = object' ∧ 0 = offset := by
      simpa [hold] using (hbytes 0 hsize).symm
    obtain ⟨⟨hne, hfree⟩, rfl⟩ := place_eq_some.mp hplace
    refine ⟨hne, rfl, object, hobject, hfree, ?_⟩
    simp only [Nat.zero_add]

end Setup

/-! ## What every operation keeps -/

structure Settled (owners : Nat → Option AudioShmBuffer) (l : Ledger) : Prop where
  owned : Owned owners l
  sized : ∀ {id b}, owners id = some b → b.Sized
  names : ∀ {name object}, l.names name = some object → l.created[object]? = some name
  named : [] ∉ l.created

section Operations
variable {owners : Nat → Option AudioShmBuffer} {l l' : Ledger} {id : Nat} {b b' : AudioShmBuffer}
  {config : AudioShmBufferConfig} {address : Nat}

theorem Settled.sized_update {o : Option AudioShmBuffer} (h : Settled owners l)
    (ho : ∀ b, o = some b → b.Sized) {other : Nat} {b : AudioShmBuffer} :
    Function.update owners id o other = some b → b.Sized :=
  of_update_eq_some (fun _ b => b.Sized) (fun _ _ _ hb => h.sized hb) ho other b

theorem Settled.setup_mapping (h : Settled owners l) (hb : owners id = some b)
    (hname : config.name = b.config_.name) (hzero : config.size = 0 → b.config_.size = 0)
    (hmap : setup_mapping { b with config_ := config } l address = some (b', l')) :
    Settled (Function.update owners id (some b')) l' ∧ b'.is_moved_ = b.is_moved_ := by
  have hown := h.owned.mapsOwn hb
  have hsized := h.sized hb
  have hfd : ∀ fd, HasDescriptor (owners id) fd → (l.descriptors fd).isSome :=
    fun fd hk => h.owned.descriptors.held_of_owns hk
  obtain ⟨object, hobject, hcreated, _⟩ := h.owned.mapsOwn hb
  by_cases hpos : 0 < config.size
  · obtain ⟨hne, rfl, object', hobject', hfree, rfl⟩ := setup_mapping_spec hown hsized hpos hmap
    obtain rfl : object = object' := by
      simpa [hobject] using hobject'
    refine ⟨⟨?_, ?_, h.names, h.named⟩, rfl⟩
    apply h.owned.exchange
    · simpa [hb] using Exchanged.refl hfd
    · simp only [hb, hasByte_some]
      exact Exchanged.clear.trans (Exchanged.fill _ hfree)
    · exact fun hk => hk
    · rintro _ ⟨⟩
      exact ⟨object, hobject, by rw [hname]; exact hcreated, fun i hi => fill_add _ hi⟩
    · exact h.owned.released
    · refine h.sized_update ?_
      rintro _ ⟨⟩
      exact ⟨rfl, iff_of_false hne (UInt32.pos_iff_ne_zero.mp hpos)⟩
  · have hsize : config.size = 0 := by
      simpa [UInt32.pos_iff_ne_zero] using hpos
    rw [setup_mapping_zero hsize] at hmap
    obtain ⟨rfl, rfl⟩ := Prod.mk.inj (Option.some.inj hmap)
    refine ⟨⟨?_, ?_, h.names, h.named⟩, rfl⟩
    apply h.owned.exchange
    · simpa [hb] using Exchanged.refl hfd
    · have hkeys : ∀ x, HasByte (owners id) x → (l.memory x).isSome :=
        fun x hk => h.owned.memory.held_of_owns hk
      simpa [hb, hzero hsize, hsize] using Exchanged.refl hkeys
    · exact fun hk => hk
    · rintro _ ⟨⟩
      refine ⟨object, hobject, by rw [hname]; exact hcreated, ?_⟩
      intro i hi
      simp [hsize] at hi
    · exact h.owned.released
    · refine h.sized_update ?_
      rintro _ ⟨⟩
      exact ⟨by simp [hsize], by simp [hsize, hsized.shm_bytes, hzero hsize]⟩

/-- What a constructor has before it maps anything: nothing of its object. -/
def opened (config : AudioShmBufferConfig) (fd : Nat) : AudioShmBuffer :=
  ⟨{ config with size := 0 }, fd, 0, 0, false⟩

theorem shm_open_spec {name : List UInt8} {fd : Nat} (h : Settled owners l)
    (hopen : l.shm_open name fd = some l') :
    ∃ object, l.descriptors fd = none ∧
      l'.descriptors = Function.update l.descriptors fd (some object) ∧
      l'.created[object]? = some name ∧ l.created <+: l'.created ∧ [] ∉ l'.created ∧
      (∀ {n k}, l'.names n = some k → l'.created[k]? = some n) ∧
      l'.memory = l.memory ∧ l'.released_twice = l.released_twice := by
  obtain ⟨⟨hname, hfd⟩, hnames⟩ := Option.ite_none_right_eq_some.mp hopen
  cases hobject : l.names name with
  | some object =>
    rw [hobject] at hnames
    obtain rfl := Option.some.inj hnames
    exact ⟨object, hfd, rfl, h.names hobject, List.prefix_refl _, h.named, h.names, rfl, rfl⟩
  | none =>
    rw [hobject] at hnames
    obtain rfl := Option.some.inj hnames
    refine ⟨l.created.length, hfd, rfl, by simp, List.prefix_append _ _, ?_, ?_, rfl, rfl⟩
    · simp [h.named, hname.symm]
    · intro n k hk
      by_cases hn : n = name
      · subst hn
        simp only [Function.update_self, Option.some.injEq] at hk
        simp [← hk]
      · simp only [Function.update_of_ne hn] at hk
        have hold := h.names hk
        obtain ⟨hlt, _⟩ := List.getElem?_eq_some_iff.mp hold
        simpa [List.getElem?_append_left hlt] using hold

theorem Settled.shm_open {fd : Nat} (h : Settled owners l) (hid : owners id = none)
    (hopen : l.shm_open config.name fd = some l') :
    Settled (Function.update owners id (some (opened config fd))) l' := by
  obtain ⟨object, hfree, hdescriptors, hcreated, hgrown, hnamed, hnames, hmemory, hreleased⟩ :=
    shm_open_spec h hopen
  refine ⟨?_, ?_, hnames, hnamed⟩
  · apply h.owned.exchange
    · rw [hdescriptors, hid, hasDescriptor_none, hasDescriptor_some]
      exact Exchanged.open_key hfree object
    · have hno : Regions.Inside 0 0 = fun _ => False := by
        funext x
        simp [Regions.Inside]
      rw [hmemory, hid, hasByte_none, hasByte_some]
      simp only [opened, UInt32.toNat_zero, hno]
      exact Exchanged.refl fun _ hk => absurd hk not_false
    · intro k n hk
      obtain ⟨hlt, hget⟩ := List.getElem?_eq_some_iff.mp hk
      rw [List.getElem?_eq_some_iff]
      exact ⟨Nat.lt_of_lt_of_le hlt hgrown.length_le, (hgrown.getElem hlt).symm.trans hget⟩
    · rintro _ ⟨⟩
      refine ⟨object, by simp [hdescriptors, opened], hcreated, ?_⟩
      intro i hi
      simp [opened] at hi
    · rw [hreleased]
      exact h.owned.released
  · refine h.sized_update ?_
    rintro _ ⟨⟩
    exact ⟨rfl, by simp [opened]⟩

theorem Settled.construct {fd : Nat} (h : Settled owners l) (hid : owners id = none)
    (hnew : construct config l fd address = some (b', l')) :
    Settled (Function.update owners id (some b')) l' ∧ b'.is_moved_ = false := by
  obtain ⟨l₁, hopen, hmap⟩ := Option.bind_eq_some_iff.mp hnew
  have hname : config.name = (opened config fd).config_.name := rfl
  have hresult := (h.shm_open hid hopen).setup_mapping (Function.update_self _ _ _) hname
    (fun _ => rfl) hmap
  rwa [Function.update_idem] at hresult

theorem Settled.destroy (h : Settled owners l) (hb : owners id = some b)
    (hmoved : b.is_moved_ = false) :
    Settled (Function.update owners id none) (b.destroy l) := by
  obtain ⟨object, hobject, _, hbytes⟩ := h.owned.mapsOwn hb
  have hledger : b.destroy l =
      ((l.munmap b.shm_bytes_ b.config_.size.toNat).close b.shm_fd_).shm_unlink b.config_.name := by
    simp [AudioShmBuffer.destroy, hmoved]
  rw [hledger]
  refine ⟨?_, ?_, ?_, h.named⟩
  · apply h.owned.exchange
    · simp only [hb, hasDescriptor_some, hasDescriptor_none]
      exact Exchanged.close_key
    · simp only [hb, hasByte_some, hasByte_none]
      exact Exchanged.clear
    · exact fun hk => hk
    · simp
    · have hmapped : ∀ i < b.config_.size.toNat, (l.memory (b.shm_bytes_ + i)).isSome := by
        intro i hi
        rw [hbytes i hi]
        rfl
      simpa [Ledger.shm_unlink, Ledger.close, Ledger.munmap, h.owned.released, hobject]
        using hmapped
  · exact h.sized_update (by simp)
  · intro name object hname
    by_cases hne : name = b.config_.name
    · subst hne
      simp [Ledger.shm_unlink] at hname
    · simp only [Ledger.shm_unlink, Function.update_of_ne hne] at hname
      exact h.names hname

theorem Settled.transfer {source : Nat} {o : AudioShmBuffer} (h : Settled owners l)
    (ho : owners source = some o) (hid : owners id = none) :
    Settled (Function.update (Function.update owners source none) id (some o)) l := by
  refine ⟨h.owned.transfer ho hid, ?_, h.names, h.named⟩
  intro other b hb
  refine of_update_eq_some (fun _ b => b.Sized) ?_ ?_ other b hb
  · intro other c _ hc
    exact h.sized_update (by simp) hc
  · intro c hc
    exact Option.some.inj hc ▸ h.sized ho

end Operations

/-! ## Steps -/

/-- An object that has been moved from has no name. -/
def Emptied (objects : Nat → Option AudioShmBuffer) : Prop :=
  ∀ id b, objects id = some b → b.is_moved_ = true → b.config_.name = []

structure Good (s : State) : Prop where
  settled : Settled (owners s.objects) s.ledger
  emptied : Emptied s.objects

/-- The steps that keep what each object owns. An object that has been moved from does not get a
buffer again, and one that has a buffer is assigned no other and does not shrink to nothing. -/
def Harmless (s : State) : Action → Prop
  | .construct _ _ _ _ => True
  | .resize id new_config address => ∀ b, s.objects id = some b →
    new_config.name = b.config_.name →
    if b.is_moved_ then
      -- the second is a system call that changes nothing
      new_config.size = 0 ∨
        b.shm_bytes_ ≠ 0 ∧ new_config.size.toNat = b.shm_size_ ∧ address = b.shm_bytes_
    else new_config.size = 0 → b.config_.size = 0
  | .moveConstruct _ source => ∀ o, s.objects source = some o → o.is_moved_ = false
  | .moveAssign id source => ∀ b o, s.objects id = some b → s.objects source = some o →
    b.is_moved_ = true ∧ o.is_moved_ = true
  | .destroy _ => True

section Steps
variable {s t : State} {objects : Nat → Option AudioShmBuffer} {id source : Nat}
  {b b' o : AudioShmBuffer} {l : Ledger} {config : AudioShmBufferConfig} {address : Nat}

theorem owners_update_unmoved (hb : b.is_moved_ = false) :
    owners (Function.update objects id (some b)) =
      Function.update (owners objects) id (some b) := by
  rw [owners_update]
  simp [Option.filter, hb]

theorem owners_update_moved (hb : b.is_moved_ = true) :
    owners (Function.update objects id (some b)) =
      Function.update (owners objects) id none := by
  rw [owners_update]
  simp [Option.filter, hb]

theorem owners_eq_none (hb : objects id = some b) (hmoved : b.is_moved_ = true) :
    owners objects id = none := by
  simp [owners, hb, Option.filter, hmoved]

/-- Objects that have been moved from come and go without owners. -/
theorem owners_update_same (hid : owners objects id = none) (hb : b.is_moved_ = true) :
    owners (Function.update objects id (some b)) = owners objects := by
  rw [owners_update_moved hb, Function.update_eq_self_iff]
  exact hid.symm

theorem Emptied.update (h : Emptied objects)
    (ho : b.is_moved_ = true → b.config_.name = []) :
    Emptied (Function.update objects id (some b)) := by
  refine of_update_eq_some _ (fun other c _ hc => h other c hc) ?_
  intro c hc
  exact Option.some.inj hc ▸ ho

theorem Emptied.remove (h : Emptied objects) : Emptied (Function.update objects id none) := by
  exact of_update_eq_some _ (fun other c _ hc => h other c hc) (fun c hc => by cases hc)

theorem emptied_of_unmoved (hb : b.is_moved_ = false) :
    b.is_moved_ = true → b.config_.name = [] := by
  rw [hb]
  exact fun hne => absurd hne Bool.false_ne_true

/-- An object that has not been moved from is good with its buffer. -/
theorem Good.of_unmoved (hempty : Emptied objects) (hlive : b.is_moved_ = false)
    (hsettled : Settled (Function.update (owners objects) id (some b)) l) :
    Good ⟨Function.update objects id (some b), l⟩ := by
  constructor
  · rw [owners_update_unmoved hlive]
    exact hsettled
  · exact hempty.update (emptied_of_unmoved hlive)

theorem setup_mapping_config (h : setup_mapping b s.ledger address = some (b', l)) :
    b'.config_ = b.config_ ∧ b'.is_moved_ = b.is_moved_ := by
  unfold setup_mapping at h
  split at h
  · obtain ⟨_, _, heq⟩ := Option.map_eq_some_iff.mp h
    obtain ⟨rfl, _⟩ := Prod.mk.inj heq
    exact ⟨rfl, rfl⟩
  · obtain ⟨rfl, _⟩ := Prod.mk.inj (Option.some.inj h)
    exact ⟨rfl, rfl⟩

/-- A remapping of as many bytes to where they are. -/
theorem mremap_same {l l' : Ledger} {old n : Nat} (h : l.mremap old n old n = some l') :
    l' = l := by
  obtain ⟨object, offset, _, hall, hplace⟩ := mremap_eq_some.mp h
  obtain ⟨_, rfl⟩ := place_eq_some.mp hplace
  simp only [fill_clear_same hall]

theorem setup_mapping_in_place {l' : Ledger}
    (hsame : config.size = 0 ∨
      b.shm_bytes_ ≠ 0 ∧ config.size.toNat = b.shm_size_ ∧ address = b.shm_bytes_)
    (h : setup_mapping { b with config_ := config } l address = some (b', l')) : l' = l := by
  by_cases hzero : config.size = 0
  · rw [setup_mapping_zero hzero] at h
    exact (Prod.mk.inj (Option.some.inj h)).2.symm
  · obtain ⟨hne, hsize, rfl⟩ := hsame.resolve_left hzero
    have hpos : 0 < config.size := UInt32.pos_iff_ne_zero.mpr hzero
    obtain ⟨_, ⟨hnull, _⟩ | ⟨_, hmap⟩⟩ := setup_mapping_cases hpos h
    · exact absurd hnull hne
    · rw [hsize] at hmap
      exact mremap_same hmap

theorem Good.resize (h : Good s) (hb : s.objects id = some b)
    (hsafe : Harmless s (.resize id config address))
    (hres : b.resize s.ledger config address = some (b', l)) :
    Good ⟨Function.update s.objects id (some b'), l⟩ := by
  have hsafe := hsafe b hb
  unfold AudioShmBuffer.resize at hres
  by_cases hname : config.name = b.config_.name
  · rw [if_neg (not_not.mpr hname)] at hres
    have hsafe := hsafe hname
    obtain ⟨hconfig, hflag⟩ := setup_mapping_config hres
    by_cases hmoved : b.is_moved_ = true
    · rw [if_pos hmoved] at hsafe
      have hempty := h.emptied id b hb hmoved
      obtain rfl := setup_mapping_in_place hsafe hres
      refine ⟨?_, ?_⟩
      · rw [owners_update_same (owners_eq_none hb hmoved) (hflag.trans hmoved)]
        exact h.settled
      · refine h.emptied.update ?_
        intro _
        rw [hconfig]
        exact hname.trans hempty
    · rw [if_neg hmoved] at hsafe
      have hlive : b.is_moved_ = false := Bool.eq_false_of_not_eq_true hmoved
      have howner := owners_eq_some.mpr ⟨hb, hlive⟩
      obtain ⟨hsettled, _⟩ := h.settled.setup_mapping howner hname hsafe hres
      exact .of_unmoved h.emptied (hflag.trans hlive) hsettled
  · rw [if_pos hname] at hres
    obtain ⟨rfl, rfl⟩ := Prod.mk.inj (Option.some.inj hres)
    rw [Function.update_eq_self_iff.mpr hb.symm]
    exact h

theorem good_step {a : Action} (hs : Good s) (hsafe : Harmless s a) (h : step s a = some t) :
    Good t := by
  cases a with
  | construct id config fd address =>
    obtain ⟨hid, hstep⟩ := Option.ite_none_right_eq_some.mp h
    obtain ⟨⟨b, l⟩, hnew, rfl⟩ := Option.map_eq_some_iff.mp hstep
    have hnone : owners s.objects id = none := by simp [owners, hid]
    obtain ⟨hsettled, hlive⟩ := hs.settled.construct hnone hnew
    exact .of_unmoved hs.emptied hlive hsettled
  | resize id config address =>
    obtain ⟨b, hb, hstep⟩ := Option.bind_eq_some_iff.mp h
    obtain ⟨⟨b', l⟩, hres, rfl⟩ := Option.map_eq_some_iff.mp hstep
    exact hs.resize hb hsafe hres
  | moveConstruct id source =>
    obtain ⟨hid, hstep⟩ := Option.ite_none_right_eq_some.mp h
    obtain ⟨o, ho, rfl⟩ := Option.map_eq_some_iff.mp hstep
    have hlive := hsafe o ho
    have hnone : owners s.objects id = none := by simp [owners, hid]
    have hsettled := hs.settled.transfer (owners_eq_some.mpr ⟨ho, hlive⟩) hnone
    have hsame : { o with is_moved_ := false } = o := by
      rw [← hlive]
    simp only [hsame]
    apply Good.of_unmoved (hs.emptied.update fun _ => rfl) hlive
    rw [owners_update_moved rfl]
    exact hsettled
  | moveAssign id source =>
    obtain ⟨b, hb, hstep⟩ := Option.bind_eq_some_iff.mp h
    obtain ⟨o, ho, rfl⟩ := Option.map_eq_some_iff.mp hstep
    obtain ⟨hbmoved, homoved⟩ := hsafe b o hb ho
    have hassign : (b.assign o).is_moved_ = true := hbmoved
    refine ⟨?_, ?_⟩
    · have hid := owners_update_same (owners_eq_none hb hbmoved) hassign
      have hsource : owners (Function.update s.objects id (some (b.assign o))) source = none := by
        rw [hid]
        exact owners_eq_none ho homoved
      rw [owners_update_same hsource rfl, hid]
      exact hs.settled
    · have hempty : (b.assign o).config_.name = [] := hs.emptied source o ho homoved
      exact (hs.emptied.update fun _ => hempty).update fun _ => rfl
  | destroy id =>
    obtain ⟨b, hb, rfl⟩ := Option.map_eq_some_iff.mp h
    refine ⟨?_, hs.emptied.remove⟩
    rw [owners_update, Option.filter_none]
    by_cases hmoved : b.is_moved_ = true
    · rw [Function.update_eq_self_iff.mpr (owners_eq_none hb hmoved).symm]
      simpa [AudioShmBuffer.destroy, hmoved] using hs.settled
    · have hlive : b.is_moved_ = false := Bool.eq_false_of_not_eq_true hmoved
      exact hs.settled.destroy (owners_eq_some.mpr ⟨hb, hlive⟩) hlive

/-! ## Steps that lose a buffer -/

theorem Owned.same_owner {owners : Nat → Option AudioShmBuffer} (h : Owned owners l)
    (hb : owners id = some b) (ho : owners source = some o) (hfd : b.shm_fd_ = o.shm_fd_) :
    id = source := by
  have hid : (HasDescriptor ∘ owners) id b.shm_fd_ := ⟨b, hb, rfl⟩
  have hsource : (HasDescriptor ∘ owners) source b.shm_fd_ := ⟨o, ho, hfd⟩
  exact h.descriptors.unique hid hsource

/-- A descriptor that was owned stays open and needs an owner. -/
theorem Owned.next_owner {before after : Nat → Option AudioShmBuffer} (h : Owned before l)
    (h' : Owned after l) (hb : before id = some b) :
    ∃ id' b', after id' = some b' ∧ b.shm_fd_ = b'.shm_fd_ := by
  have hmine : (HasDescriptor ∘ before) id b.shm_fd_ := ⟨b, hb, rfl⟩
  have hopen := h.descriptors.held_of_owns hmine
  obtain ⟨id', b', hb', hfd⟩ := h'.descriptors.owned hopen
  exact ⟨id', b', hb', hfd⟩

theorem shrunk_to_nothing {owners : Nat → Option AudioShmBuffer} (h : Owned owners l)
    (hb : owners id = some b) (hpos : 0 < b.config_.size) (hzero : b'.config_.size = 0) :
    ¬ Owned (Function.update owners id (some b')) l := by
  intro h'
  have hmine : (HasByte ∘ owners) id b.shm_bytes_ := by
    refine ⟨b, hb, Nat.le_refl _, ?_⟩
    have hlt := toNat_pos.mp hpos
    omega
  obtain ⟨other, hother⟩ := h'.memory.owned (h.memory.held_of_owns hmine)
  by_cases hid : other = id
  · subst hid
    simp [hzero, Regions.Inside] at hother
    omega
  · rw [Function.comp_apply, Function.update_of_ne hid] at hother
    exact hid (h.memory.unique hother hmine)

/-- The bytes that a new mapping of an object without a buffer takes are nobody's. -/
theorem remapped_by_nobody {owners : Nat → Option AudioShmBuffer} {l' : Ledger}
    (h : Owned owners l) (hpos : 0 < config.size)
    (hmoved : ¬ (b.shm_bytes_ ≠ 0 ∧ config.size.toNat = b.shm_size_ ∧ address = b.shm_bytes_))
    (hmap : setup_mapping { b with config_ := config } l address = some (b', l')) :
    ¬ Owned owners l' := by
  intro h'
  have hlen := toNat_pos.mp hpos
  have hsame : ∀ x, (l'.memory x).isSome ↔ (l.memory x).isSome := by
    intro x
    rw [h.memory.held_iff, h'.memory.held_iff]
  obtain ⟨_, ⟨hnull, hmap⟩ | ⟨hnull, hmap⟩⟩ := setup_mapping_cases hpos hmap
  · obtain ⟨object, _, hplace⟩ := mmap_eq_some.mp hmap
    obtain ⟨⟨_, hfree⟩, rfl⟩ := place_eq_some.mp hplace
    have hfirst : (l.memory (address + 0)).isSome := by
      rw [← hsame]
      simp only [fill_add _ hlen, Option.isSome_some]
    rw [hfree 0 hlen] at hfirst
    contradiction
  · obtain ⟨object, offset, _, hall, hplace⟩ := mremap_eq_some.mp hmap
    obtain ⟨⟨_, hfree⟩, rfl⟩ := place_eq_some.mp hplace
    have hmapped : ∀ i < b.shm_size_, (l.memory (b.shm_bytes_ + i)).isSome := by
      intro i hi
      rw [hall i hi]
      rfl
    obtain ⟨haddress, hsize⟩ :=
      moved_in_place (f := fun i => (object, offset + i)) hlen hmapped hfree hsame
    exact hmoved ⟨hnull, hsize, haddress⟩

theorem lost_resize (hs : Good s) (hb : s.objects id = some b)
    (hname : config.name = b.config_.name)
    (hbad : ¬ if b.is_moved_ then config.size = 0 ∨
        b.shm_bytes_ ≠ 0 ∧ config.size.toNat = b.shm_size_ ∧ address = b.shm_bytes_
      else config.size = 0 → b.config_.size = 0)
    (hres : b.resize s.ledger config address = some (b', l)) :
    ¬ Owned (owners (Function.update s.objects id (some b'))) l := by
  rw [AudioShmBuffer.resize, if_neg (not_not.mpr hname)] at hres
  obtain ⟨hconfig, hflag⟩ := setup_mapping_config hres
  by_cases hmoved : b.is_moved_ = true
  · rw [if_pos hmoved, not_or] at hbad
    rw [owners_update_same (owners_eq_none hb hmoved) (hflag.trans hmoved)]
    exact remapped_by_nobody hs.settled.owned (UInt32.pos_iff_ne_zero.mpr hbad.1) hbad.2 hres
  · have hlive : b.is_moved_ = false := Bool.eq_false_of_not_eq_true hmoved
    rw [if_neg hmoved, Classical.not_imp] at hbad
    obtain ⟨hzero, hpos⟩ := hbad
    rw [setup_mapping_zero hzero] at hres
    obtain ⟨_, rfl⟩ := Prod.mk.inj (Option.some.inj hres)
    rw [owners_update_unmoved (hflag.trans hlive)]
    apply shrunk_to_nothing hs.settled.owned (owners_eq_some.mpr ⟨hb, hlive⟩)
      (UInt32.pos_iff_ne_zero.mpr hpos)
    rw [hconfig]
    exact hzero

/-- The new object is a second owner, or the owner of what is not open. -/
theorem lost_moveConstruct (hs : Good s) (hid : s.objects id = none)
    (ho : s.objects source = some o) (hmoved : o.is_moved_ = true) :
    ¬ Owned (owners (Function.update (Function.update s.objects source (some o.moved)) id
      (some { o with is_moved_ := false }))) s.ledger := by
  rw [owners_update_unmoved rfl, owners_update_same (owners_eq_none ho hmoved) rfl]
  intro h'
  have hnew : (HasDescriptor ∘ Function.update (owners s.objects) id
      (some { o with is_moved_ := false })) id o.shm_fd_ := by
    rw [Function.comp_apply, Function.update_self, hasDescriptor_some]
  have hopen := h'.descriptors.held_of_owns hnew
  obtain ⟨other, hother⟩ := hs.settled.owned.descriptors.owned hopen
  have hne : other ≠ id := by
    rintro rfl
    simp [owners, hid] at hother
  have hstill : (HasDescriptor ∘ Function.update (owners s.objects) id
      (some { o with is_moved_ := false })) other o.shm_fd_ := by
    rw [Function.comp_apply, Function.update_of_ne hne]
    exact hother
  exact hne (h'.descriptors.unique hstill hnew)

theorem owner_after_assign {other : Nat} {c : AudioShmBuffer}
    (hc : owners (Function.update (Function.update objects id (some (b.assign o))) source
      (some o.moved)) other = some c) :
    other ≠ source ∧ c.is_moved_ = false ∧
      (other = id ∧ c = b.assign o ∨ other ≠ id ∧ owners objects other = some c) := by
  obtain ⟨hc, hlive⟩ := owners_eq_some.mp hc
  by_cases hsource : other = source
  · subst hsource
    rw [Function.update_self] at hc
    obtain rfl := Option.some.inj hc
    contradiction
  · rw [Function.update_of_ne hsource] at hc
    refine ⟨hsource, hlive, ?_⟩
    by_cases hid : other = id
    · subst hid
      rw [Function.update_self] at hc
      exact Or.inl ⟨rfl, (Option.some.inj hc).symm⟩
    · rw [Function.update_of_ne hid] at hc
      exact Or.inr ⟨hid, owners_eq_some.mpr ⟨hc, hlive⟩⟩

/-- The descriptor of one of the two is left without an owner, or its owner has lost the name. -/
theorem lost_moveAssign (hs : Good s) (hb : s.objects id = some b) (ho : s.objects source = some o)
    (hbad : ¬ (b.is_moved_ = true ∧ o.is_moved_ = true)) :
    ¬ Owned (owners (Function.update (Function.update s.objects id (some (b.assign o))) source
      (some o.moved))) s.ledger := by
  intro h'
  have hown := hs.settled.owned
  by_cases hbmoved : b.is_moved_ = true
  · have homoved : o.is_moved_ = false := by
      simpa [hbmoved] using hbad
    have howner := owners_eq_some.mpr ⟨ho, homoved⟩
    obtain ⟨other, c, hc, hfd⟩ := hown.next_owner h' howner
    obtain ⟨hsource, hlive, ⟨_, rfl⟩ | ⟨_, hold⟩⟩ := owner_after_assign hc
    · rw [assign, hbmoved] at hlive
      contradiction
    · exact hsource (hown.same_owner howner hold hfd).symm
  · have howner := owners_eq_some.mpr ⟨hb, Bool.eq_false_of_not_eq_true hbmoved⟩
    obtain ⟨other, c, hc, hfd⟩ := hown.next_owner h' howner
    obtain ⟨hsource, hlive, ⟨rfl, rfl⟩ | ⟨hne, hold⟩⟩ := owner_after_assign hc
    · by_cases homoved : o.is_moved_ = true
      · obtain ⟨object, _, hname, _⟩ := h'.mapsOwn hc
        have hempty : (b.assign o).config_.name = [] := hs.emptied source o ho homoved
        rw [hempty] at hname
        exact hs.settled.named (List.mem_of_getElem? hname)
      · have hsecond := owners_eq_some.mpr ⟨ho, Bool.eq_false_of_not_eq_true homoved⟩
        exact hsource (hown.same_owner howner hsecond hfd)
    · exact hne (hown.same_owner howner hold hfd).symm

theorem lost_step {a : Action} (hs : Good s) (hbad : ¬ Harmless s a) (h : step s a = some t) :
    ¬ Owned (owners t.objects) t.ledger := by
  cases a with
  | construct id config fd address => exact absurd trivial hbad
  | resize id config address =>
    obtain ⟨b, hb, hstep⟩ := Option.bind_eq_some_iff.mp h
    obtain ⟨⟨b', l⟩, hres, rfl⟩ := Option.map_eq_some_iff.mp hstep
    simp only [Harmless, hb, Option.some.injEq, forall_eq', Classical.not_imp] at hbad
    exact lost_resize hs hb hbad.1 hbad.2 hres
  | moveConstruct id source =>
    obtain ⟨hid, hstep⟩ := Option.ite_none_right_eq_some.mp h
    obtain ⟨o, ho, rfl⟩ := Option.map_eq_some_iff.mp hstep
    have hmoved : o.is_moved_ = true := by
      simpa [Harmless, ho] using hbad
    exact lost_moveConstruct hs hid ho hmoved
  | moveAssign id source =>
    obtain ⟨b, hb, hstep⟩ := Option.bind_eq_some_iff.mp h
    obtain ⟨o, ho, rfl⟩ := Option.map_eq_some_iff.mp hstep
    have hlive : ¬ (b.is_moved_ = true ∧ o.is_moved_ = true) := by
      simpa [Harmless, hb, ho] using hbad
    exact lost_moveAssign hs hb ho hlive
  | destroy id => exact absurd trivial hbad

end Steps

/-! ## Runs -/

theorem good_init : Good init where
  settled :=
    { owned :=
        { mapsOwn := fun hb => by cases hb
          descriptors := Divided.empty (by simp [HasDescriptor, owners, init])
          memory := Divided.empty (by simp [HasByte, owners, init])
          released := rfl }
      sized := fun hb => by cases hb
      names := fun hname => by cases hname
      named := List.not_mem_nil }
  emptied := fun _ _ hb => by cases hb

/-- Nothing is mapped, nothing is open, and nothing was released that was not held. -/
structure Nothing (l : Ledger) : Prop where
  memory : ∀ x, l.memory x = none
  descriptors : ∀ fd, l.descriptors fd = none
  released : l.released_twice = false

theorem Owned.nothing {owners : Nat → Option AudioShmBuffer} {l : Ledger} (h : Owned owners l)
    (hnone : ∀ id, owners id = none) : Nothing l where
  memory := h.memory.nothing_held (by simp [hnone])
  descriptors := h.descriptors.nothing_held (by simp [hnone])
  released := h.released

/-- Every object owns its buffer throughout exactly the runs of harmless steps, and when all
objects are gone these leave nothing. -/
theorem owned_iff_harmless {as : List Action} {t : State} (h : run step init as = some t) :
    (Throughout step (fun s => Owned (owners s.objects) s.ledger) init as ↔
      Meets step Harmless init as) ∧
    (Meets step Harmless init as → (∀ id, t.objects id = none) → Nothing t.ledger) := by
  have hiff : Throughout step (fun s => Owned (owners s.objects) s.ledger) init as ↔
      Meets step Harmless init as :=
    throughout_iff_meets (fun _ _ _ (_ : True) _ => trivial)
      (fun _ _ _ _ (hs : Good _) hsafe hstep => good_step hs hsafe hstep)
      (fun _ _ hs => hs.settled.owned)
      (fun _ _ _ _ hs hbad hstep => lost_step hs hbad hstep) trivial good_init h
  refine ⟨hiff, ?_⟩
  intro hmeets hgone
  have howned := (hiff.mpr hmeets).last h
  apply howned.nothing
  intro id
  simp [owners, hgone id]

def twoBytes (name : UInt8) : AudioShmBufferConfig := ⟨[name], 2, [], []⟩

/-- A buffer is moved on to a second object, which grows before both objects are gone. -/
def movedOn : List Action :=
  [.construct 0 (twoBytes 97) 3 4096, .moveConstruct 1 0, .resize 1 ⟨[97], 3, [], []⟩ 4096,
    .destroy 0, .destroy 1]

theorem owned_movedOn : ∃ t, run step init movedOn = some t ∧
    (Throughout step (fun s => Owned (owners s.objects) s.ledger) init movedOn ↔
      Meets step Harmless init movedOn) ∧
    (Meets step Harmless init movedOn → (∀ id, t.objects id = none) → Nothing t.ledger) :=
  ⟨_, rfl, owned_iff_harmless rfl⟩

/-- One of two buffers is assigned to the other. -/
def assigned : List Action :=
  [.construct 0 (twoBytes 97) 3 4096, .construct 1 (twoBytes 98) 4 8192, .moveAssign 0 1,
    .destroy 0, .destroy 1]

theorem first_buffer_left : ¬ ∀ (as : List Action) (t : State), run step init as = some t →
    Throughout step (fun s => Owned (owners s.objects) s.ledger) init as ∧
      ((∀ id, t.objects id = none) → Nothing t.ledger) := by
  intro h
  obtain ⟨t, hrun, hgone, hmapped⟩ : ∃ t, run step init assigned = some t ∧
      (∀ id, t.objects id = none) ∧ t.ledger.memory 4096 = some (0, 0) := by
    refine ⟨_, rfl, ?_, rfl⟩
    intro id
    match id with
    | 0 => rfl
    | 1 => rfl
    | _ + 2 => rfl
  have hnothing := (h assigned t hrun).2 hgone
  rw [hnothing.memory] at hmapped
  contradiction

end AudioShmBuffer
