import Wasivst.Bitsery
import Wasivst.Lib.Reader
import Wasivst.Lib.Transition

/-!
# Objects on a stream socket

`write_object` and `read_object` of `communication/common.h` on one direction of a socket. Bitsery's
`quickSerialization` and `quickDeserialization` are parameters: the first writes to the front of
the buffer, whatever size that has, and only its return value says how much. Both sides reuse
their buffers and objects, and messages of several types may follow each other.
-/

set_option autoImplicit false

namespace ObjectStream
open LittleEndian StreamReader Transition

/-- `quickSerialization` returns the buffer and the size, `quickDeserialization` the object and
whether it was read. -/
structure QuickSerializer (α : Type) where
  image : α → List UInt8
  quickSerialization : List UInt8 → α → List UInt8 × UInt64
  quickDeserialization : List UInt8 → α → α × Bool
  image_lt : ∀ x, (image x).length < 2 ^ 64
  serialization_eq : ∀ buffer x, ∃ rest,
    quickSerialization buffer x = (image x ++ rest, UInt64.ofNat (image x).length)
  deserialization_eq : ∀ x old, quickDeserialization (image x) old = (x, true)

inductive SocketFault where
  | incomplete
  | deserialization
  deriving DecidableEq

/-- `asio::buffer` of a vector and a maximum. -/
def asioBuffer (data : List UInt8) (max_size_in_bytes : Nat) : List UInt8 :=
  data.take (if data.length < max_size_in_bytes then data.length else max_size_in_bytes)

def resize (buffer : List UInt8) (size : Nat) : List UInt8 :=
  buffer.take size ++ List.replicate (size - buffer.length) 0

section Objects
variable {α : Type} (S : QuickSerializer α)

/-- The socket and the buffer after the call. -/
def write_object (socket : List UInt8) (object : α) (buffer : List UInt8) :
    List UInt8 × List UInt8 :=
  let (buffer, size) := S.quickSerialization buffer object
  (socket ++ ofU64 size ++ asioBuffer buffer size.toNat, buffer)

/-- `asio::read` of exactly so many bytes to the front of a buffer that has them. -/
def readExactly (buffer : List UInt8) (size : Nat) : Reader UInt8 SocketFault (List UInt8) :=
  (fun bytes => bytes ++ buffer.drop bytes.length) <$>
    take .incomplete (min buffer.length size)

def read_object (object : α) (buffer : List UInt8) :
    Reader UInt8 SocketFault (α × List UInt8) := do
  let message_length ← take .incomplete 8
  let size := (toU64 message_length).toNat
  let buffer := resize buffer size
  let buffer ← readExactly buffer size
  let (object, success) := S.quickDeserialization (buffer.take size) object
  if success then pure (object, buffer) else fun _ => .error .deserialization

def frame (x : α) : List UInt8 := ofU64 (UInt64.ofNat (S.image x).length) ++ S.image x

theorem frame_length (x : α) : (frame S x).length = 8 + (S.image x).length := by
  simp [frame]

@[simp] theorem resize_length (buffer : List UInt8) (size : Nat) :
    (resize buffer size).length = size := by
  simp only [resize, List.length_append, List.length_take, List.length_replicate]
  omega

theorem image_size (x : α) : (UInt64.ofNat (S.image x).length).toNat = (S.image x).length := by
  rw [UInt64.toNat_ofNat', Nat.mod_eq_of_lt (S.image_lt x)]

/-- Nothing that the buffer held before gets to the socket. -/
theorem write_object_socket (socket : List UInt8) (x : α) (buffer : List UInt8) :
    (write_object S socket x buffer).1 = socket ++ frame S x := by
  obtain ⟨rest, hwrite⟩ := S.serialization_eq buffer x
  have hbytes : asioBuffer (S.image x ++ rest) (S.image x).length = S.image x := by
    unfold asioBuffer
    rw [if_neg (by simp), List.take_left]
  simp only [write_object, hwrite, image_size, hbytes, frame, List.append_assoc]

theorem consumes_readExactly {buffer bytes : List UInt8} {size : Nat} (hb : buffer.length = size)
    (hs : bytes.length = size) : Consumes (readExactly buffer size) bytes bytes := by
  have htake : Consumes (take SocketFault.incomplete (min buffer.length size)) bytes bytes :=
    consumes_take _ (by omega)
  have hmap := htake.map fun bs => bs ++ buffer.drop bs.length
  have hdrop : buffer.drop bytes.length = [] := List.drop_eq_nil_of_le (by omega)
  rwa [hdrop, List.append_nil] at hmap

/-- A frame is read as one message, into any object and any buffer. -/
theorem consumes_read_object (x old : α) (buffer : List UInt8) :
    Consumes (read_object S old buffer) (frame S x) (x, S.image x) := by
  have hlength : Consumes (take SocketFault.incomplete 8)
      (ofU64 (UInt64.ofNat (S.image x).length)) _ := consumes_take _ (ofU64_length _)
  have hbody := consumes_readExactly (resize_length buffer (S.image x).length)
    (rfl : (S.image x).length = _)
  unfold frame
  apply hlength.bind
  rw [toU64_ofU64, image_size]
  suffices h : Consumes _ (S.image x ++ []) (x, S.image x) by rwa [List.append_nil] at h
  refine hbody.bind ?_
  simp only [List.take_length, S.deserialization_eq, if_true]
  exact Consumes.pure _

end Objects

/-! ## Any order of writes and reads -/

section Runs
variable {ι : Type} {T : ι → Type} (S : ∀ i, QuickSerializer (T i))

/-- An object with its type. -/
abbrev Object (T : ι → Type) := Σ i, T i

/-- A read is given the object that is decoded into, with whatever that holds. -/
inductive Step (T : ι → Type)
  | write (object : Object T)
  | read (old : Object T)

/-- `received` has the number of bytes that each read took with the object that it returned. -/
structure State (T : ι → Type) where
  socket : List UInt8
  write_buffer : List UInt8
  read_buffer : List UInt8
  sent : List (Object T)
  received : List (Object T × Nat)

/-- Neither buffer has to be empty. -/
def init (write_buffer read_buffer : List UInt8) : State T :=
  ⟨[], write_buffer, read_buffer, [], []⟩

/-- A read of a message that has not arrived blocks. -/
def step (s : State T) : Step T → Option (State T)
  | .write x =>
    let r := write_object (S x.1) s.socket x.2 s.write_buffer
    some { s with socket := r.1, write_buffer := r.2, sent := s.sent ++ [x] }
  | .read old =>
    match (read_object (S old.1) old.2 s.read_buffer).run s.socket with
    | .error _ => none
    | .ok ((object, buffer), socket) =>
      some
        { s with
          socket := socket
          read_buffer := buffer
          received := s.received ++ [(⟨old.1, object⟩, s.socket.length - socket.length)] }

/-- The reader expects the type of the next message. -/
def Expected (s : State T) : Step T → Prop
  | .write _ => True
  | .read old => ∀ x, s.sent[s.received.length]? = some x → old.1 = x.1

def frames (xs : List (Object T)) : List UInt8 := xs.flatMap fun x => frame (S x.1) x.2

/-- What a read returns of an object, and what it takes: the length and the body. -/
def receipt (x : Object T) : Object T × Nat := (x, 8 + ((S x.1).image x.2).length)

/-- The objects on the socket are those that have been sent and not received. -/
def Inv (s : State T) : Prop :=
  ∃ done pending, s.sent = done ++ pending ∧ s.received = done.map (receipt S) ∧
    s.socket = frames S pending

theorem inv_init (write_buffer read_buffer : List UInt8) :
    Inv S (init write_buffer read_buffer) := ⟨[], [], rfl, rfl, rfl⟩

theorem read_object_frames {x old : Object T} (htype : old.1 = x.1) (buffer : List UInt8)
    (xs : List (Object T)) :
    ∃ object buffer', (⟨old.1, object⟩ : Object T) = x ∧
      (read_object (S old.1) old.2 buffer).run (frames S (x :: xs)) =
        .ok ((object, buffer'), frames S xs) := by
  obtain ⟨i, old⟩ := old
  obtain ⟨j, x⟩ := x
  obtain rfl : i = j := htype
  exact ⟨x, _, rfl, consumes_read_object (S i) x old buffer (frames S xs)⟩

/-- A message that is there is read, and nothing of what follows it. -/
theorem step_read {s : State T} {done pending : List (Object T)} {x : Object T} (old : Object T)
    (hreceived : s.received = done.map (receipt S)) (hsocket : s.socket = frames S (x :: pending))
    (htype : old.1 = x.1) : ∃ t, step S s (.read old) = some t ∧
      t.sent = s.sent ∧ t.received = (done ++ [x]).map (receipt S) ∧
      t.socket = frames S pending := by
  obtain ⟨object, buffer, hobject, hread⟩ := read_object_frames S htype s.read_buffer pending
  have hlength : s.socket.length - (frames S pending).length =
      8 + ((S x.1).image x.2).length := by
    rw [hsocket, frames, List.flatMap_cons, List.length_append, frame_length, frames]
    omega
  rw [← hsocket] at hread
  have hstep : step S s (.read old) = some
      { s with
        socket := frames S pending
        read_buffer := buffer
        received := s.received ++
          [(⟨old.1, object⟩, s.socket.length - (frames S pending).length)] } := by
    simp only [step, hread]
  refine ⟨_, hstep, rfl, ?_, rfl⟩
  rw [hlength, hobject, hreceived, List.map_append]
  rfl

theorem step_keeps {s t : State T} {a : Step T} (hs : Inv S s) (hgood : Expected s a)
    (h : step S s a = some t) : Inv S t := by
  obtain ⟨done, pending, hsent, hreceived, hsocket⟩ := hs
  cases a with
  | write x =>
    obtain rfl := Option.some.inj h
    refine ⟨done, pending ++ [x], ?_, hreceived, ?_⟩
    · simp [hsent]
    · simp [write_object_socket, hsocket, frames]
  | read old =>
    cases pending with
    | nil =>
      have hblocked : (read_object (S old.1) old.2 s.read_buffer).run s.socket =
          .error .incomplete := by
        rw [hsocket]
        rfl
      rw [step, hblocked] at h
      cases h
    | cons x pending =>
      have hnext : s.sent[s.received.length]? = some x := by
        simp [hsent, hreceived]
      obtain ⟨u, hu, hsent', hreceived', hsocket'⟩ :=
        step_read S _ hreceived hsocket (hgood x hnext)
      obtain rfl := Option.some.inj (hu.symm.trans h)
      exact ⟨done ++ [x], pending, by simp [hsent', hsent], hreceived', hsocket'⟩

def Step.written : Step T → Option (Object T)
  | .write x => some x
  | .read _ => none

def Step.readInto : Step T → Option (Object T)
  | .write _ => none
  | .read old => some old

/-- The lists of a state are those of the steps. -/
theorem step_lists {s t : State T} {a : Step T} (h : step S s a = some t) :
    t.sent = s.sent ++ a.written.toList ∧
      t.received.length = s.received.length + a.readInto.toList.length := by
  cases a with
  | write x =>
    obtain rfl := Option.some.inj h
    exact ⟨rfl, rfl⟩
  | read old =>
    cases hread : (read_object (S old.1) old.2 s.read_buffer).run s.socket with
    | error e =>
      rw [step, hread] at h
      cases h
    | ok v =>
      rw [step, hread] at h
      obtain rfl := Option.some.inj h
      exact ⟨(List.append_nil _).symm, List.length_append⟩

theorem run_lists {s t : State T} {as : List (Step T)} (h : run (step S) s as = some t) :
    t.sent = s.sent ++ as.filterMap Step.written ∧
      t.received.length = s.received.length + (as.filterMap Step.readInto).length := by
  induction as generalizing s with
  | nil =>
    obtain rfl := Option.some.inj h
    exact ⟨(List.append_nil _).symm, rfl⟩
  | cons a as ih =>
    obtain ⟨u, hu, hrun⟩ := run_cons_eq_some.mp h
    obtain ⟨hsent, hreceived⟩ := step_lists S hu
    obtain ⟨hsent', hreceived'⟩ := ih hrun
    rw [hsent', hsent, hreceived', hreceived]
    cases a with
    | write x => exact ⟨List.append_assoc _ _ _, rfl⟩
    | read old =>
      have hread : (Step.read old :: as).filterMap Step.readInto =
          old :: as.filterMap Step.readInto := rfl
      refine ⟨List.append_assoc _ _ _, ?_⟩
      rw [hread, List.length_cons]
      simp only [Step.readInto, Option.toList_some, List.length_cons, List.length_nil]
      omega

/-- In every run, the objects received are the first ones written, each for its own length and
body, and the next one can be read as long as there is one. -/
theorem objects_received (write_buffer read_buffer : List UInt8) {as : List (Step T)} {t : State T}
    (htypes : Meets (step S) Expected (init write_buffer read_buffer) as)
    (h : run (step S) (init write_buffer read_buffer) as = some t) :
    let sent := as.filterMap Step.written
    let reads := (as.filterMap Step.readInto).length
    t.received = (sent.take reads).map (receipt S) ∧ t.socket = frames S (sent.drop reads) ∧
      ∀ x, sent[reads]? = some x → ∀ old : T x.1, ∃ u,
        step S t (.read ⟨x.1, old⟩) = some u ∧ u.received = t.received ++ [receipt S x] := by
  obtain ⟨done, pending, hsent, hreceived, hsocket⟩ :=
    run_invariant (fun _ _ _ => step_keeps S) (inv_init S write_buffer read_buffer) htypes h
  obtain ⟨hwritten, hreads⟩ := run_lists S h
  have hlength : (as.filterMap Step.readInto).length = done.length := by
    rw [hreceived, List.length_map] at hreads
    exact (hreads.trans (Nat.zero_add _)).symm
  have hdone : as.filterMap Step.written = done ++ pending := hwritten.symm.trans hsent
  simp only [hlength, hdone, List.take_left, List.drop_left]
  refine ⟨hreceived, hsocket, ?_⟩
  intro x hx old
  rw [List.getElem?_append_right (Nat.le_refl _), Nat.sub_self] at hx
  cases pending with
  | nil => cases hx
  | cons y pending =>
    obtain rfl := Option.some.inj hx
    obtain ⟨u, hu, _, hreceived', _⟩ := step_read S ⟨_, old⟩ hreceived hsocket rfl
    refine ⟨u, hu, ?_⟩
    rw [hreceived', hreceived, List.map_append]
    rfl

end Runs

/-! ## Codecs as serializers -/

/-- The image goes to the front of the buffer, and what is behind it stays. -/
def ofCodec {α : Type} (c : InPlace.Codec α) (hfits : ∀ x, c.fits x) (hput : c.Overwrites)
    (hlt : ∀ x, (c.write x).length < 2 ^ 64) : QuickSerializer α where
  image := c.write
  quickSerialization buffer x :=
    (c.write x ++ buffer.drop (c.write x).length, UInt64.ofNat (c.write x).length)
  quickDeserialization bytes old :=
    match c.decode old bytes with
    | some x => (x, true)
    | none => (old, false)
  image_lt := hlt
  serialization_eq _ _ := ⟨_, rfl⟩
  deserialization_eq x old := by
    rw [c.decode_write old (hfits x), hput]

def words : Unit → QuickSerializer UInt32 := fun _ =>
  ofCodec Bitsery.default.value4b Bitsery.default.value4b_fits Bitsery.default.value4b_put
    fun v => by
      have hlength : (Bitsery.default.value4b.write v).length = 4 := ofU32_length v
      omega

/-- One word, with a buffer that is too long and one that is too short. -/
theorem one_word_received : ∃ t, run (step words) (init [1, 2, 3, 4, 5] [6])
    [.write ⟨(), 7⟩, .read ⟨(), 9⟩] = some t ∧ t.received = [(⟨(), 7⟩, 12)] := by
  obtain ⟨t, ht⟩ := Option.isSome_iff_exists.mp
    (show (run (step words) (init [1, 2, 3, 4, 5] [6])
      [.write ⟨(), 7⟩, .read ⟨(), 9⟩]).isSome from rfl)
  refine ⟨t, ht, ?_⟩
  have htypes : Meets (step words) Expected (init [1, 2, 3, 4, 5] [6])
      [.write ⟨(), 7⟩, .read ⟨(), 9⟩] :=
    ⟨trivial, fun _ _ => ⟨fun _ _ => rfl, fun _ _ => trivial⟩⟩
  exact (objects_received words [1, 2, 3, 4, 5] [6] htypes ht).1

end ObjectStream
