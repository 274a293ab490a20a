import Wasivst.Vst2Host

/-!
# The memory accesses of a PROCESS frame

`SerialChannel::read_process_frame_body` and `Vst2Host::process_block` once more, this time by the
bytes that are stored in the `samples` vector and the indices at which it is read. Vectors that
cannot be allocated throw; what can be allocated is a parameter.
-/

set_option autoImplicit false

namespace Wasivst
open LittleEndian StreamReader

structure ProcessHeader where
  sampleCount : UInt32
  channelCount : UInt32
  audioBytes : UInt32

/-- The three lengths of the header agree; the products are those of numbers without a bound. -/
def ProcessHeader.Consistent (h : ProcessHeader) : Prop :=
  h.audioBytes.toNat = 4 * h.sampleCount.toNat * h.channelCount.toNat

/-- Whether a vector of so many samples can be allocated, and the vectors of `process_block` for a
channel count and a sample count. -/
structure Memory where
  samples : Nat → Bool
  buffers : UInt32 → UInt32 → Bool

/-- `held` is the size in bytes of `samples`, and `stored` is how many bytes `fread` puts there. -/
structure FrameAccess where
  held : Nat
  stored : Nat
  reads : List Nat
  processed : Bool

namespace ProcessFrame
open SerialChannel Vst2Host

def readHeader : Input ProcessHeader := do
  let sampleCount ← readU32
  let channelCount ← readU32
  let audioBytes ← readU32
  pure ⟨sampleCount, channelCount, audioBytes⟩

/-- `c * n + s`, as a `uint32_t`. -/
def sampleIndex (n : UInt32) (c s : Nat) : Nat := (UInt32.ofNat c * n + UInt32.ofNat s).toNat

def copied (n ch : UInt32) : List Nat :=
  (List.range ch.toNat).flatMap fun c => (List.range n.toNat).map fun s => sampleIndex n c s

/-- The body of the frame with the given header is `rest`. -/
def accessBody (memory : Memory) (h : ProcessHeader) (rest : List UInt8) : FrameAccess :=
  let audioBytes := h.audioBytes.toNat
  if memory.samples (audioBytes / 4) then
    let held := audioBytes / 4 * 4
    let stored := min audioBytes rest.length
    -- a short read throws after the bytes that were there have been stored
    if audioBytes ≤ rest.length ∧ memory.buffers h.channelCount h.sampleCount then
      ⟨held, stored, copied h.sampleCount h.channelCount, true⟩
    else ⟨held, stored, [], false⟩
  else ⟨0, 0, [], false⟩

def access (memory : Memory) (stdin : List UInt8) : FrameAccess :=
  match readHeader.run stdin with
  | .ok (h, rest) => accessBody memory h rest
  | .error _ => ⟨0, 0, [], false⟩

structure InBounds (a : FrameAccess) : Prop where
  stored : a.stored ≤ a.held
  reads : ∀ i ∈ a.reads, i < a.held / 4

/-- Every access is in its vector, and nothing is copied from a frame with inconsistent lengths. -/
structure Contained (memory : Memory) (stdin : List UInt8) : Prop where
  inBounds : InBounds (access memory stdin)
  rejected : ∀ h rest, readHeader.run stdin = .ok (h, rest) → ¬ h.Consistent →
    (access memory stdin).processed = false ∧ (access memory stdin).reads = []

/-! ## The indices -/

theorem mem_copied {n ch : UInt32} {i : Nat} :
    i ∈ copied n ch ↔ ∃ c < ch.toNat, ∃ s < n.toNat, sampleIndex n c s = i := by
  simp only [copied, List.mem_flatMap, List.mem_range, List.mem_map]

theorem sampleIndex_eq {n : UInt32} {c s : Nat} (h : c * n.toNat + s < 2 ^ 32) (hc : c < 2 ^ 32) :
    sampleIndex n c s = c * n.toNat + s := by
  have hs : s < 2 ^ 32 := by omega
  have hprod : c * n.toNat < 2 ^ 32 := by omega
  unfold sampleIndex
  rw [UInt32.toNat_add, UInt32.toNat_mul, UInt32.toNat_ofNat', UInt32.toNat_ofNat',
    Nat.mod_eq_of_lt hc, Nat.mod_eq_of_lt hs, Nat.mod_eq_of_lt hprod, Nat.mod_eq_of_lt h]

/-- Products that wrap do not help: the loops still come by the first index outside. -/
theorem copied_lt_iff (n ch : UInt32) {size : Nat} (hsize : size < 2 ^ 32) :
    (∀ i ∈ copied n ch, i < size) ↔ ch.toNat * n.toNat ≤ size := by
  have hch := ch.toNat_lt
  constructor
  · intro h
    by_contra hgt
    have hpos : 0 < n.toNat := by
      apply Nat.pos_of_ne_zero
      intro hzero
      rw [hzero] at hgt
      omega
    have hrow : size / n.toNat < ch.toNat := (Nat.div_lt_iff_lt_mul hpos).mpr (Nat.not_le.mp hgt)
    have hcol : size % n.toNat < n.toNat := Nat.mod_lt _ hpos
    have hindex : size / n.toNat * n.toNat + size % n.toNat = size := Nat.div_add_mod' _ _
    have hmem : size ∈ copied n ch := by
      refine mem_copied.mpr ⟨_, hrow, _, hcol, ?_⟩
      rw [sampleIndex_eq (by omega) (by omega), hindex]
    exact absurd (h size hmem) (Nat.lt_irrefl _)
  · intro h i hi
    obtain ⟨c, hc, s, hs, rfl⟩ := mem_copied.mp hi
    have hrow : (c + 1) * n.toNat ≤ ch.toNat * n.toNat := Nat.mul_le_mul_right _ hc
    rw [Nat.add_mul, Nat.one_mul] at hrow
    rw [sampleIndex_eq (by omega) (by omega)]
    omega

/-! ## One frame -/

/-- The bytes that are stored end with the vector. -/
def StoresFit (audioBytes available : Nat) : Prop :=
  4 ∣ audioBytes ∨ available ≤ audioBytes / 4 * 4

theorem stored_le_iff (audioBytes available : Nat) :
    min audioBytes available ≤ audioBytes / 4 * 4 ↔ StoresFit audioBytes available := by
  unfold StoresFit
  omega

theorem accessBody_inBounds_iff (memory : Memory) (h : ProcessHeader) (rest : List UInt8) :
    InBounds (accessBody memory h rest) ↔
      (memory.samples (h.audioBytes.toNat / 4) →
        StoresFit h.audioBytes.toNat rest.length ∧
        (h.audioBytes.toNat ≤ rest.length → memory.buffers h.channelCount h.sampleCount →
          h.channelCount.toNat * h.sampleCount.toNat ≤ h.audioBytes.toNat / 4)) := by
  have hsize : h.audioBytes.toNat / 4 < 2 ^ 32 := by
    have hlt := h.audioBytes.toNat_lt
    omega
  have hreads : (∀ i ∈ copied h.sampleCount h.channelCount,
      i < h.audioBytes.toNat / 4 * 4 / 4) ↔
        h.channelCount.toNat * h.sampleCount.toNat ≤ h.audioBytes.toNat / 4 := by
    rw [Nat.mul_div_cancel _ (by decide)]
    exact copied_lt_iff _ _ hsize
  dsimp only [accessBody]
  split_ifs with hsamples hbody
  · simp only [hsamples, hbody, true_implies, ← hreads, ← stored_le_iff]
    exact ⟨fun ⟨hs, hr⟩ => ⟨hs, hr⟩, fun ⟨hs, hr⟩ => ⟨hs, hr⟩⟩
  · have hno : (h.audioBytes.toNat ≤ rest.length →
        memory.buffers h.channelCount h.sampleCount →
          h.channelCount.toNat * h.sampleCount.toNat ≤ h.audioBytes.toNat / 4) :=
      fun hle hbuf => absurd ⟨hle, hbuf⟩ hbody
    rw [← stored_le_iff]
    exact ⟨fun ⟨hs, _⟩ _ => ⟨hs, hno⟩,
      fun hi => ⟨(hi hsamples).1, fun _ hi => (List.not_mem_nil hi).elim⟩⟩
  · exact iff_of_true ⟨Nat.le_refl _, fun _ hi => (List.not_mem_nil hi).elim⟩
      fun h => absurd h hsamples

theorem accessBody_processed (memory : Memory) (h : ProcessHeader) (rest : List UInt8) :
    (accessBody memory h rest).processed ↔ memory.samples (h.audioBytes.toNat / 4) ∧
      h.audioBytes.toNat ≤ rest.length ∧ memory.buffers h.channelCount h.sampleCount := by
  dsimp only [accessBody]
  split_ifs with hsamples hbody
  · simp [hsamples, hbody]
  · simp [hsamples, hbody]
  · simp [hsamples]

theorem reads_of_not_processed {memory : Memory} {h : ProcessHeader} {rest : List UInt8}
    (hp : (accessBody memory h rest).processed = false) :
    (accessBody memory h rest).reads = [] := by
  dsimp only [accessBody] at hp ⊢
  split_ifs at hp ⊢
  · rfl
  · rfl

theorem access_of_ok {memory : Memory} {stdin rest : List UInt8} {h : ProcessHeader}
    (hh : readHeader.run stdin = .ok (h, rest)) :
    access memory stdin = accessBody memory h rest := by
  unfold access
  rw [hh]

theorem access_inBounds_iff (memory : Memory) (stdin : List UInt8) :
    InBounds (access memory stdin) ↔
      ∀ h rest, readHeader.run stdin = .ok (h, rest) → InBounds (accessBody memory h rest) := by
  constructor
  · intro hb h rest hh
    rwa [access_of_ok hh] at hb
  · intro hb
    cases hh : readHeader.run stdin with
    | error e =>
      unfold access
      rw [hh]
      exact ⟨Nat.le_refl _, fun _ hi => (List.not_mem_nil hi).elim⟩
    | ok v =>
      rw [access_of_ok hh]
      exact hb v.1 v.2 hh

/-- When a frame stays inside the vectors, and when in addition one with inconsistent lengths is
turned away: nothing looks at the lengths but the allocations and the end of the stream. -/
theorem contained_iff (memory : Memory) (stdin : List UInt8) :
    (InBounds (access memory stdin) ↔ ∀ h rest, readHeader.run stdin = .ok (h, rest) →
      memory.samples (h.audioBytes.toNat / 4) →
        StoresFit h.audioBytes.toNat rest.length ∧
        (h.audioBytes.toNat ≤ rest.length → memory.buffers h.channelCount h.sampleCount →
          h.channelCount.toNat * h.sampleCount.toNat ≤ h.audioBytes.toNat / 4)) ∧
    (Contained memory stdin ↔ ∀ h rest, readHeader.run stdin = .ok (h, rest) →
      memory.samples (h.audioBytes.toNat / 4) →
        StoresFit h.audioBytes.toNat rest.length ∧
        (h.audioBytes.toNat ≤ rest.length → memory.buffers h.channelCount h.sampleCount →
          h.Consistent)) := by
  have hbounds := access_inBounds_iff memory stdin
  simp only [accessBody_inBounds_iff] at hbounds
  refine ⟨hbounds, ?_⟩
  constructor
  · rintro ⟨hin, hrejected⟩ h rest hh hsamples
    refine ⟨(hbounds.mp hin h rest hh hsamples).1, ?_⟩
    intro hle hbuffers
    by_contra hno
    have hfalse := (hrejected h rest hh hno).1
    rw [access_of_ok hh] at hfalse
    have htrue := (accessBody_processed memory h rest).mpr ⟨hsamples, hle, hbuffers⟩
    exact Bool.false_ne_true (hfalse.symm.trans htrue)
  · intro hall
    constructor
    · rw [hbounds]
      intro h rest hh hsamples
      obtain ⟨hfit, hcons⟩ := hall h rest hh hsamples
      refine ⟨hfit, ?_⟩
      intro hle hbuffers
      have heq := hcons hle hbuffers
      unfold ProcessHeader.Consistent at heq
      rw [heq, Nat.mul_assoc, Nat.mul_div_cancel_left _ (by decide), Nat.mul_comm]
    · intro h rest hh hno
      rw [access_of_ok hh]
      have hfalse : (accessBody memory h rest).processed = false := by
        by_contra hp
        obtain ⟨hsamples, hle, hbuffers⟩ :=
          (accessBody_processed memory h rest).mp (Bool.eq_true_of_not_eq_false hp)
        exact hno ((hall h rest hh hsamples).2 hle hbuffers)
      exact ⟨hfalse, reads_of_not_processed hfalse⟩

def unlimited : Memory := ⟨fun _ => true, fun _ _ => true⟩

/-- No channels and no samples, and five bytes for a vector of four. -/
def fiveBytes : List UInt8 := [0, 0, 0, 0, 0, 0, 0, 0, 5, 0, 0, 0, 1, 2, 3, 4, 5]

theorem fiveBytes_not_contained : ¬ ∀ (memory : Memory) (stdin : List UInt8),
    Contained memory stdin := by
  intro h
  have hstored := (h unlimited fiveBytes).inBounds.stored
  exact absurd hstored (by decide)

/-! ## The faults of the host -/

section Faults
variable {σ : Type} (P : Plugin σ)

def handleProcess (h : HostState σ) : Except HostFault (HostState σ) :=
  match readProcessFrameBody.run h.stdin with
  | .error e => .error e
  | .ok (frame, rest) => processBlock P frame { h with stdin := rest }

theorem readHeader_fails : FailsWith HostFault.eof readHeader := by
  have hu32 : FailsWith HostFault.eof readU32 := (FailsWith.take 4).map _
  exact hu32.bind fun _ => hu32.bind fun _ => hu32.bind fun _ => FailsWith.pure _

/-- The frame is read by its header. -/
theorem readProcessFrameBody_run (s : List UInt8) :
    readProcessFrameBody.run s = (readHeader.run s >>= fun r =>
      (readInto (r.1.audioBytes.toNat / 4 * 4) r.1.audioBytes.toNat).run r.2 >>= fun r' =>
        pure (⟨r.1.sampleCount, r.1.channelCount, toWords r'.1⟩, r'.2)) := by
  simp only [readProcessFrameBody, readHeader, StateT.run_bind, bind_assoc, StateT.run_pure,
    pure_bind]

theorem mapM_error_mem {α γ : Type} {f : α → Except HostFault γ} {xs : List α} {e : HostFault}
    (h : xs.mapM f = .error e) : ∃ x ∈ xs, f x = .error e := by
  induction xs with
  | nil => cases h
  | cons x xs ih =>
    rw [List.mapM_cons] at h
    cases hx : f x with
    | error e' =>
      rw [hx] at h
      cases h
      exact ⟨x, List.mem_cons_self, hx⟩
    | ok y =>
      rw [hx] at h
      cases hxs : xs.mapM f with
      | error e' =>
        rw [hxs] at h
        cases h
        obtain ⟨z, hz, hfz⟩ := ih hxs
        exact ⟨z, List.mem_cons_of_mem x hz, hfz⟩
      | ok ys =>
        rw [hxs] at h
        cases h

theorem mapM_ok_mem {α γ : Type} {f : α → Except HostFault γ} {xs : List α} {ys : List γ}
    (h : xs.mapM f = .ok ys) {x : α} (hx : x ∈ xs) : ∃ y, f x = .ok y := by
  induction xs generalizing ys with
  | nil => exact absurd hx List.not_mem_nil
  | cons z xs ih =>
    rw [List.mapM_cons] at h
    cases hz : f z with
    | error e =>
      rw [hz] at h
      cases h
    | ok y =>
      rw [hz] at h
      cases hxs : xs.mapM f with
      | error e =>
        rw [hxs] at h
        cases h
      | ok ys' =>
        rcases List.mem_cons.mp hx with rfl | hmem
        · exact ⟨y, hz⟩
        · exact ih hxs hmem

theorem sampleAt_ok_iff (frame : ProcessFrame) (c s : Nat) :
    (∃ w, sampleAt frame c s = .ok w) ↔ sampleIndex frame.sampleCount c s < frame.samples.length := by
  unfold sampleAt sampleIndex
  cases h : frame.samples[(UInt32.ofNat c * frame.sampleCount + UInt32.ofNat s).toNat]? with
  | none => simpa using List.getElem?_eq_none_iff.mp h
  | some w => simpa using (List.getElem?_eq_some_iff.mp h).1

theorem inBufs_ok_iff (frame : ProcessFrame) :
    (∃ ins, inBufs frame = .ok ins) ↔
      ∀ i ∈ copied frame.sampleCount frame.channelCount, i < frame.samples.length := by
  constructor
  · rintro ⟨ins, h⟩ i hi
    obtain ⟨c, hc, s, hs, rfl⟩ := mem_copied.mp hi
    obtain ⟨row, hrow⟩ := mapM_ok_mem h (List.mem_range.mpr hc)
    exact (sampleAt_ok_iff frame c s).mp (mapM_ok_mem hrow (List.mem_range.mpr hs))
  · intro h
    cases hi : inBufs frame with
    | ok ins => exact ⟨ins, rfl⟩
    | error e =>
      obtain ⟨c, hc, hrow⟩ := mapM_error_mem hi
      obtain ⟨s, hs, hsample⟩ := mapM_error_mem hrow
      have hlt := h _ (mem_copied.mpr ⟨c, List.mem_range.mp hc, s, List.mem_range.mp hs, rfl⟩)
      obtain ⟨w, hw⟩ := (sampleAt_ok_iff frame c s).mpr hlt
      rw [hw] at hsample
      cases hsample

theorem inBufs_error {frame : ProcessFrame} {e : HostFault} (h : inBufs frame = .error e) :
    e = .outOfBounds := by
  obtain ⟨c, _, hrow⟩ := mapM_error_mem h
  obtain ⟨s, _, hsample⟩ := mapM_error_mem hrow
  unfold sampleAt at hsample
  split at hsample
  · cases hsample
  · exact (Except.error.inj hsample).symm

theorem processBlock_faults_iff (frame : ProcessFrame) (h : HostState σ) :
    processBlock P frame h ≠ .error .outOfBounds ↔
      ∀ i ∈ copied frame.sampleCount frame.channelCount, i < frame.samples.length := by
  rw [← inBufs_ok_iff]
  unfold processBlock
  cases hi : inBufs frame with
  | ok ins => exact iff_of_true (fun h => by cases h) ⟨ins, rfl⟩
  | error e =>
    obtain rfl := inBufs_error hi
    exact iff_of_false (fun h => h rfl) fun ⟨_, h⟩ => by cases h

/-- The host goes on to the next frame or throws, unless an access is outside of its vector. -/
theorem handleProcess_faults_iff (h : HostState σ) :
    handleProcess P h ≠ .error .outOfBounds ↔ InBounds (access unlimited h.stdin) := by
  unfold handleProcess
  rw [readProcessFrameBody_run]
  cases hh : readHeader.run h.stdin with
  | error e =>
    obtain rfl := readHeader_fails _ _ hh
    have hnone : InBounds (access unlimited h.stdin) := by
      rw [access_inBounds_iff, hh]
      intro _ _ hok
      cases hok
    exact iff_of_true (fun h => by cases h) hnone
  | ok v =>
    obtain ⟨header, rest⟩ := v
    rw [access_of_ok hh, accessBody_inBounds_iff, ← stored_le_iff]
    simp only [unlimited, true_implies, bind, Except.bind, readInto, StateT.run]
    split_ifs with hout
    · apply iff_of_false (fun h => h rfl)
      intro hboth
      have hstored := hboth.1
      omega
    · have hstored : min header.audioBytes.toNat rest.length ≤ header.audioBytes.toNat / 4 * 4 := by
        omega
      simp only [hstored, true_and, readBytes, StreamReader.take]
      split_ifs with hshort
      · exact iff_of_true (fun h => by cases h) fun hle => absurd hshort (Nat.not_lt.mpr hle)
      · have hsize : (toWords (rest.take header.audioBytes.toNat)).length =
            header.audioBytes.toNat / 4 := by
          rw [toWords_length, List.length_take, Nat.min_eq_left (Nat.not_lt.mp hshort)]
        have hlt := header.audioBytes.toNat_lt
        have hsmall : header.audioBytes.toNat / 4 < 2 ^ 32 := by omega
        have hcopied := copied_lt_iff header.sampleCount header.channelCount hsmall
        simp only [Nat.not_lt.mp hshort, true_implies, ← hcopied]
        exact (processBlock_faults_iff P _ _).trans (by rw [hsize])

end Faults

end ProcessFrame
end Wasivst
