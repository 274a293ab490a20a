import Mathlib.Data.List.Basic

/-!
# Codecs that read into an existing object

`Codec.read old bs` decodes the front of `bs` into `old`, so what `old` held may survive in the
parts that the format does not carry. `Codec.put old x` says what is left when the image of `x`
is decoded into `old`; the two are tied together by the law of the structure. A record is
described once, as a list of its parts in wire order, and written and read by that list.
-/

set_option autoImplicit false

namespace InPlace

/-- A value with an image of its own; nothing of an earlier value survives. -/
structure Prim (α : Type) where
  write : α → List UInt8
  read : List UInt8 → Option (α × List UInt8)
  fits : α → Bool
  read_write : ∀ a rest, fits a → read (write a ++ rest) = some (a, rest)

structure Codec (α : Type) where
  write : α → List UInt8
  read : α → List UInt8 → Option (α × List UInt8)
  fits : α → Bool
  put : α → α → α
  read_write : ∀ old x rest, fits x → read old (write x ++ rest) = some (put old x, rest)

variable {α β σ : Type}

def Prim.codec (p : Prim α) : Codec α where
  write := p.write
  read _ := p.read
  fits := p.fits
  put _ x := x
  read_write _ := p.read_write

@[simp] theorem Prim.codec_put (p : Prim α) (old x : α) : p.codec.put old x = x := rfl

@[simp] theorem Prim.codec_fits (p : Prim α) (x : α) : p.codec.fits x = p.fits x := rfl

namespace Codec

/-- Decoding a whole buffer: every byte must have been used. -/
def decode (c : Codec α) (old : α) (bs : List UInt8) : Option α :=
  (c.read old bs).bind fun r => if r.2.isEmpty then some r.1 else none

theorem decode_write (c : Codec α) (old : α) {x : α} (hx : c.fits x) :
    c.decode old (c.write x) = some (c.put old x) := by
  have h := c.read_write old x [] hx
  rw [List.append_nil] at h
  simp [decode, h]

/-- A value that a declared maximum excludes is not sent. -/
def send (c : Codec α) (x : α) : Option (List UInt8) := if c.fits x then some (c.write x) else none

def transfer (c : Codec α) (old x : α) : Option α := (c.send x).bind (c.decode old)

theorem transfer_eq (c : Codec α) (old x : α) :
    c.transfer old x = if c.fits x then some (c.put old x) else none := by
  unfold transfer send
  by_cases hx : c.fits x
  · rw [if_pos hx, if_pos hx, Option.bind_some, c.decode_write old hx]
  · rw [if_neg hx, if_neg hx, Option.bind_none]

theorem transfer_eq_some {c : Codec α} {old x y : α} :
    c.transfer old x = some y ↔ c.fits x ∧ y = c.put old x := by
  rw [transfer_eq]
  split_ifs with h
  · simp [h, eq_comm]
  · simp [h]

/-- A value is sent, and something is made from what arrived. -/
theorem transfer_pair_eq_some {β : Type} {c : Codec α} {old x y : α} {g : α → Option β} {b : β} :
    ((c.transfer old x).bind fun y => (g y).bind fun b => some (y, b)) = some (y, b) ↔
      c.fits x ∧ y = c.put old x ∧ g y = some b := by
  simp only [Option.bind_eq_some_iff, transfer_eq_some, Option.some.injEq, Prod.mk.injEq]
  constructor
  · rintro ⟨_, ⟨hfits, rfl⟩, _, hb, rfl, rfl⟩
    exact ⟨hfits, rfl, hb⟩
  · rintro ⟨hfits, rfl, hb⟩
    exact ⟨_, ⟨hfits, rfl⟩, b, hb, rfl, rfl⟩

/-- Whatever the object held, afterwards it is the one that was sent. -/
def Overwrites (c : Codec α) : Prop := ∀ old x, c.put old x = x

/-! ## Records -/

def nil : Codec α where
  write _ := []
  read old bs := some (old, bs)
  fits _ := true
  put old _ := old
  read_write _ _ _ _ := rfl

def append (c d : Codec α) : Codec α where
  write x := c.write x ++ d.write x
  read old bs := (c.read old bs).bind fun r => d.read r.1 r.2
  fits x := c.fits x && d.fits x
  put old x := d.put (c.put old x) x
  read_write old x rest h := by
    rw [Bool.and_eq_true] at h
    rw [List.append_assoc, c.read_write old x _ h.1]
    exact d.read_write _ x rest h.2

/-- The part of a record that `get` reads and `set` replaces. -/
def field (get : α → β) (set : α → β → α) (c : Codec β) : Codec α where
  write x := c.write (get x)
  read old bs := (c.read (get old) bs).map fun r => (set old r.1, r.2)
  fits x := c.fits (get x)
  put old x := set old (c.put (get old) (get x))
  read_write old x rest h := by rw [c.read_write (get old) (get x) rest h, Option.map_some]

/-- A part that is not in the image: reading sets it to `v`. -/
def const (v : β) : Codec β where
  write _ := []
  read _ bs := some (v, bs)
  fits _ := true
  put _ _ := v
  read_write _ _ _ _ := rfl

/-- Reading takes the image but fills a copy of the object, which is then dropped. -/
def byValue (c : Codec α) : Codec α where
  write := c.write
  read old bs := (c.read old bs).map fun r => (old, r.2)
  fits := c.fits
  put old _ := old
  read_write old x rest h := by rw [c.read_write old x rest h, Option.map_some]

def record : List (Codec α) → Codec α
  | [] => nil
  | c :: cs => c.append (record cs)

@[simp] theorem record_nil_put (old x : α) : (record [] : Codec α).put old x = old := rfl

@[simp] theorem record_cons_put (c : Codec α) (cs : List (Codec α)) (old x : α) :
    (record (c :: cs)).put old x = (record cs).put (c.put old x) x := rfl

@[simp] theorem field_put (get : α → β) (set : α → β → α) (c : Codec β) (old x : α) :
    (field get set c).put old x = set old (c.put (get old) (get x)) := rfl

@[simp] theorem record_nil_fits (x : α) : (record [] : Codec α).fits x = true := rfl

@[simp] theorem record_cons_fits (c : Codec α) (cs : List (Codec α)) (x : α) :
    (record (c :: cs)).fits x = (c.fits x && (record cs).fits x) := rfl

theorem record_append_put (cs ds : List (Codec α)) (old x : α) :
    (record (cs ++ ds)).put old x =
      (record ds).put ((record cs).put old x) x := by
  induction cs generalizing old with
  | nil => rfl
  | cons c cs ih =>
    rw [List.cons_append, record_cons_put, record_cons_put, ih]

theorem record_append_fits (cs ds : List (Codec α)) (x : α) :
    (record (cs ++ ds)).fits x = ((record cs).fits x && (record ds).fits x) := by
  induction cs with
  | nil => rfl
  | cons c cs ih =>
    rw [List.cons_append, record_cons_fits, record_cons_fits, ih, Bool.and_assoc]

@[simp] theorem field_fits (get : α → β) (set : α → β → α) (c : Codec β) (x : α) :
    (field get set c).fits x = c.fits (get x) := rfl

@[simp] theorem const_put (v old x : β) : (const v).put old x = v := rfl

@[simp] theorem const_fits (v x : β) : (const v).fits x = true := rfl

@[simp] theorem byValue_put (c : Codec α) (old x : α) : (byValue c).put old x = old := rfl

@[simp] theorem byValue_fits (c : Codec α) (x : α) : (byValue c).fits x = c.fits x := rfl

/-! ## Sequences -/

section Sequence
variable (size : Prim Nat) (max : Nat) (fresh : α) (c : Codec α)

/-- Elements that are there already are reused, further ones start as `fresh`. -/
def readList : Nat → List α → List UInt8 → Option (List α × List UInt8)
  | 0, _, bs => some ([], bs)
  | n + 1, olds, bs =>
    (c.read (olds.headD fresh) bs).bind fun r =>
      (readList n olds.tail r.2).map fun rs => (r.1 :: rs.1, rs.2)

def putList : List α → List α → List α
  | _, [] => []
  | olds, x :: xs => c.put (olds.headD fresh) x :: putList olds.tail xs

theorem readList_write (olds xs : List α) (rest : List UInt8) (h : ∀ x ∈ xs, c.fits x) :
    readList fresh c xs.length olds (xs.flatMap c.write ++ rest) =
      some (putList fresh c olds xs, rest) := by
  induction xs generalizing olds with
  | nil => rfl
  | cons x xs ih =>
    have hx := c.read_write (olds.headD fresh) x (xs.flatMap c.write ++ rest)
      (h x List.mem_cons_self)
    have hxs := ih olds.tail fun y hy => h y (List.mem_cons_of_mem x hy)
    simp only [List.length_cons, List.flatMap_cons, List.append_assoc, readList, hx, hxs,
      Option.bind_some, Option.map_some, putList]

/-- The sender asserts that there are at most `max` elements, so no larger count is decoded. -/
def list : Codec (List α) where
  write xs := size.write xs.length ++ xs.flatMap c.write
  read olds bs := (size.read bs).bind fun r =>
    if max < r.1 then none else readList fresh c r.1 olds r.2
  fits xs := size.fits xs.length && decide (xs.length ≤ max) && xs.all c.fits
  put := putList fresh c
  read_write olds xs rest h := by
    simp only [Bool.and_eq_true, decide_eq_true_eq, List.all_eq_true] at h
    have hsize := size.read_write xs.length (xs.flatMap c.write ++ rest) h.1.1
    rw [List.append_assoc, hsize, Option.bind_some, if_neg (Nat.not_lt.mpr h.1.2)]
    exact readList_write fresh c olds xs rest h.2

@[simp] theorem list_put (olds xs : List α) :
    (list size max fresh c).put olds xs = putList fresh c olds xs := rfl

@[simp] theorem list_fits (xs : List α) : (list size max fresh c).fits xs =
    (size.fits xs.length && decide (xs.length ≤ max) && xs.all c.fits) := rfl

@[simp] theorem putList_length (olds xs : List α) :
    (putList fresh c olds xs).length = xs.length := by
  induction xs generalizing olds with
  | nil => rfl
  | cons x xs ih => simp [putList, ih]

/-- A part of the elements that every decoding replaces is that of the list sent. -/
theorem map_putList {f : α → β} (h : ∀ old x, f (c.put old x) = f x) (olds xs : List α) :
    (putList fresh c olds xs).map f = xs.map f := by
  induction xs generalizing olds with
  | nil => rfl
  | cons x xs ih => simp [putList, ih, h]

theorem mapIdx_putList {f : Nat → α → β} (h : ∀ i old x, f i (c.put old x) = f i x)
    (olds xs : List α) : (putList fresh c olds xs).mapIdx f = xs.mapIdx f := by
  induction xs generalizing f olds with
  | nil => rfl
  | cons x xs ih =>
    rw [putList, List.mapIdx_cons, List.mapIdx_cons, h, ih fun i => h (i + 1)]

theorem putList_eq (h : c.Overwrites) (olds xs : List α) : putList fresh c olds xs = xs := by
  have hmap := map_putList fresh c (f := id) h olds xs
  simpa using hmap

end Sequence

/-- Exactly `n` values, without a count. -/
def array [Inhabited α] (n : Nat) (p : Prim α) : Prim (Vector α n) where
  write v := v.toList.flatMap p.write
  read bs := (readList default p.codec n [] bs).bind fun r =>
    if h : r.1.length = n then some (⟨⟨r.1⟩, h⟩, r.2) else none
  fits v := v.toList.all p.fits
  read_write v rest h := by
    have hread := readList_write default p.codec [] v.toList rest (List.all_eq_true.mp h)
    rw [putList_eq default p.codec (fun _ _ => rfl), Vector.length_toList] at hread
    have hw : p.codec.write = p.write := rfl
    rw [hw] at hread
    rw [hread]
    simp only [Option.bind_some, Vector.length_toList, dif_pos]
    rfl

@[simp] theorem array_fits [Inhabited α] (n : Nat) (p : Prim α) (v : Vector α n) :
    (array n p).fits v = v.toList.all p.fits := rfl

/-! ## Optional parts -/

section Optional
variable (flag : Prim Bool) (hflag : ∀ b, flag.fits b) (fresh : α) (reuse : Bool) (c : Codec α)

def start (old : Option α) : α := if reuse then old.getD fresh else fresh

/-- An absent value leaves nothing; a present one is read into the old one or into `fresh`. -/
def option : Codec (Option α) where
  write
    | none => flag.write false
    | some x => flag.write true ++ c.write x
  read old bs := (flag.read bs).bind fun r =>
    if r.1 then (c.read (start fresh reuse old) r.2).map fun v => (some v.1, v.2)
    else some (none, r.2)
  fits x := x.all c.fits
  put old x := x.map (c.put (start fresh reuse old))
  read_write old x rest h := by
    cases x with
    | none => simp [flag.read_write false rest (hflag false)]
    | some v =>
      have hv := c.read_write (start fresh reuse old) v rest h
      simp [flag.read_write true _ (hflag true), hv]

@[simp] theorem option_put (old x : Option α) :
    (option flag hflag fresh reuse c).put old x = x.map (c.put (start fresh reuse old)) := rfl

@[simp] theorem option_fits (x : Option α) :
    (option flag hflag fresh reuse c).fits x = x.all c.fits := rfl

end Optional
end Codec

/-! ## Tagged unions -/

/-- One alternative of the union `σ`: how it is recognised, what it is decoded into and how the
result is stored. -/
structure Alt (σ : Type) where
  T : Type
  proj : σ → Option T
  start : σ → T
  inj : σ → T → σ
  codec : Codec T

namespace Alt

def put (a : Alt σ) (old : σ) (v : a.T) : σ := a.inj old (a.codec.put (a.start old) v)

def read (a : Alt σ) (old : σ) (bs : List UInt8) : Option (σ × List UInt8) :=
  (a.codec.read (a.start old) bs).map fun r => (a.inj old r.1, r.2)

theorem read_write (a : Alt σ) (old : σ) {v : a.T} (rest : List UInt8) (h : a.codec.fits v) :
    a.read old (a.codec.write v ++ rest) = some (a.put old v, rest) := by
  unfold read put
  rw [a.codec.read_write _ v rest h, Option.map_some]

end Alt

namespace Codec

section Variant
variable (index : Prim Nat)

/-- `i` is the index of the first alternative of the list. -/
def writeAlts : Nat → List (Alt σ) → σ → List UInt8
  | _, [], _ => []
  | i, a :: as, x =>
    match a.proj x with
    | some v => index.write i ++ a.codec.write v
    | none => writeAlts (i + 1) as x

def putAlts : List (Alt σ) → σ → σ → σ
  | [], _, x => x
  | a :: as, old, x =>
    match a.proj x with
    | some v => a.put old v
    | none => putAlts as old x

def fitsAlts : Nat → List (Alt σ) → σ → Bool
  | _, [], _ => false
  | i, a :: as, x =>
    match a.proj x with
    | some v => index.fits i && a.codec.fits v
    | none => fitsAlts (i + 1) as x

def readAlts (as : List (Alt σ)) (old : σ) (bs : List UInt8) : Option (σ × List UInt8) :=
  (index.read bs).bind fun r => (as[r.1]?).bind fun a => a.read old r.2

theorem readAlts_write (as : List (Alt σ)) (old x : σ) (rest : List UInt8)
    (pre : List (Alt σ)) (h : fitsAlts index pre.length as x) :
    readAlts index (pre ++ as) old (writeAlts index pre.length as x ++ rest) =
      some (putAlts as old x, rest) := by
  induction as generalizing pre with
  | nil => exact absurd h Bool.false_ne_true
  | cons a as ih =>
    unfold fitsAlts at h
    unfold writeAlts putAlts
    cases hv : a.proj x with
    | some v =>
      simp only [hv, Bool.and_eq_true] at h ⊢
      have hi := index.read_write pre.length (a.codec.write v ++ rest) h.1
      have ha : (pre ++ a :: as)[pre.length]? = some a := by simp
      simp only [readAlts, List.append_assoc, hi, Option.bind_some, ha]
      exact a.read_write old rest h.2
    | none =>
      simp only [hv] at h ⊢
      have hlen : (pre ++ [a]).length = pre.length + 1 := by simp
      have hstep := ih (pre ++ [a]) (hlen ▸ h)
      rwa [List.append_assoc, List.singleton_append, hlen] at hstep

def variant (as : List (Alt σ)) : Codec σ where
  write := writeAlts index 0 as
  read := readAlts index as
  fits := fitsAlts index 0 as
  put := putAlts as
  read_write old x rest h := readAlts_write index as old x rest [] h

@[simp] theorem variant_put (as : List (Alt σ)) (old x : σ) :
    (variant index as).put old x = putAlts as old x := rfl

@[simp] theorem variant_fits (as : List (Alt σ)) (x : σ) :
    (variant index as).fits x = fitsAlts index 0 as x := rfl

end Variant
end Codec
end InPlace
