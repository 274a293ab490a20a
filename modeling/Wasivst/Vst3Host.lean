import Wasivst.Encoder
import Wasivst.Lib.Transition
import Wasivst.SerialChannel

/-!
# `Vst3Host::run`

The loop reads a body only after a PROCESS tag and goes on to the next tag otherwise, so that
the body of every other frame is read as tags, byte by byte. As long as none of these bytes is
the PROCESS tag they are skipped; the first one that is starts a frame of its own, which
reaches past the end of the frame it was found in.
-/

set_option autoImplicit false

namespace Wasivst
open LittleEndian StreamReader Transition

structure Stdio where
  stdin : List UInt8
  stdout : List UInt8

namespace Vst3Host
open SerialChannel

def silence (n : UInt32) : List UInt32 := List.replicate n.toNat 0

/-- The body of `while (true)`. -/
def body (h : Stdio) : Except HostFault Stdio :=
  match readNextTag.run h.stdin with
  | .error e => .error e
  | .ok (tag, rest) =>
    if tag ≠ some .process then .ok { h with stdin := rest }
    else
      match readProcessFrameBody.run rest with
      | .error e => .error e
      | .ok (frame, rest) =>
        let n := frame.sampleCount
        .ok ⟨rest, h.stdout ++ writeProcessResp n 2 [silence n, silence n]⟩

/-- The constructor writes it when the module is loaded. -/
def loadedLog : List UInt8 := writeLog 1 (.literal "vst3-host") (.literal "VST3 module loaded")

def startLog : List UInt8 :=
  writeLog 2 (.literal "vst3-host") (.literal "VST3 host run() — not yet fully implemented")

def run (h : Stdio) : Stdio × Option HostFault :=
  loop body (h.stdin.length + 1) { h with stdout := h.stdout ++ startLog }

/-! ## One iteration -/

theorem body_skip {b : UInt8} (hb : b ≠ FrameTag.process.code) (rest out : List UInt8) :
    body ⟨b :: rest, out⟩ = .ok ⟨rest, out⟩ := by
  have htag : readNextTag.run (b :: rest) = .ok (FrameTag.ofByte b, rest) := consumes_nextTag b rest
  have hne : FrameTag.ofByte b ≠ some .process := by
    intro h
    exact hb (FrameTag.ofByte_eq_some h)
  simp only [body, htag, if_pos hne]

theorem body_process (b : PlanarBlock) (rest out : List UInt8) :
    body ⟨(WorkletFrame.process b).bytes ++ rest, out⟩ =
      .ok ⟨rest, out ++ writeProcessResp b.sampleCount 2
        [silence b.sampleCount, silence b.sampleCount]⟩ := by
  have htag : readNextTag.run ((WorkletFrame.process b).bytes ++ rest) =
      .ok (some .process, (WorkletFrame.process b).body ++ rest) :=
    consumes_nextTag FrameTag.process.code _
  have hbody : readProcessFrameBody.run ((WorkletFrame.process b).body ++ rest) =
      .ok (⟨b.sampleCount, b.channelCount, b.samples⟩, rest) := consumes_processBody b rest
  simp [body, htag, hbody]

theorem body_takes_header {rest out : List UInt8} {t : Stdio}
    (h : body ⟨FrameTag.process.code :: rest, out⟩ = .ok t) : t.stdin.length + 12 ≤ rest.length := by
  have htag : readNextTag.run (FrameTag.process.code :: rest) = .ok (some .process, rest) :=
    consumes_nextTag FrameTag.process.code rest
  simp only [body, htag, ne_eq, not_true_eq_false, if_false] at h
  split at h
  · cases h
  · rename_i f r hr
    cases h
    exact takes_processBody _ _ _ hr

theorem body_shrinks (h t : Stdio) (hb : body h = .ok t) : t.stdin.length < h.stdin.length := by
  obtain ⟨stdin, out⟩ := h
  cases stdin with
  | nil => cases hb
  | cons b rest =>
    rcases eq_or_ne b FrameTag.process.code with rfl | hp
    · have hle := body_takes_header hb
      simp only [List.length_cons]
      omega
    · rw [body_skip hp] at hb
      cases hb
      simp

/-- Whatever is on the line, the loop ends by an exception. -/
theorem run_ends (h : Stdio) :
    ∃ t e, Iterates body { h with stdout := h.stdout ++ startLog } t ∧ body t = .error e ∧
      run h = (t, some e) :=
  loop_ends body_shrinks _ _ (Nat.lt_succ_self _)

theorem iterates_length {h t : Stdio} (hit : Iterates body h t) :
    t.stdin.length ≤ h.stdin.length := by
  induction hit with
  | refl => exact Nat.le_refl _
  | tail _ hbc ih => exact Nat.le_trans (Nat.le_of_lt (body_shrinks _ _ hbc)) ih

theorem iterates_skip {bs : List UInt8} (hbs : FrameTag.process.code ∉ bs) (rest out : List UInt8) :
    Iterates body ⟨bs ++ rest, out⟩ ⟨rest, out⟩ := by
  induction bs with
  | nil => exact Iterates.refl _
  | cons b bs ih =>
    have hb : b ≠ FrameTag.process.code := by
      intro h
      exact hbs (h ▸ List.mem_cons_self)
    apply Iterates.head (body_skip hb _ _)
    apply ih
    intro h
    exact hbs (List.mem_cons_of_mem b h)

/-! ## Frame alignment -/

/-- What the host owes for one message: silence of the block's own length, or nothing. -/
def response : Message → List UInt8
  | .process b => writeProcessResp b.planar.sampleCount 2
      [silence b.planar.sampleCount, silence b.planar.sampleCount]
  | _ => []

/-- At every frame boundary the loop is at a tag read, having answered the PROCESS frames before
it and nothing else; in particular the last boundary is where the input ends. -/
def Aligned (ms : List Message) : Prop :=
  ∀ pre post, ms = pre ++ post →
    Iterates body ⟨Message.encodeAll ms, startLog⟩
      ⟨Message.encodeAll post, startLog ++ pre.flatMap response⟩

/-- None of the bytes after the tag of a SET_PARAM or GET_PARAM frame is the PROCESS tag. -/
def Skippable : Message → Prop
  | .process _ => True
  | m => FrameTag.process.code ∉ m.encode.tail

theorem iterates_message {m : Message} (hm : Skippable m) (rest out : List UInt8) :
    Iterates body ⟨m.encode ++ rest, out⟩ ⟨rest, out ++ response m⟩ := by
  have hskip : ∀ t bs, m.encode = t :: bs → t ≠ FrameTag.process.code →
      FrameTag.process.code ∉ bs → Iterates body ⟨m.encode ++ rest, out⟩ ⟨rest, out⟩ := by
    intro t bs he ht hbs
    rw [he]
    exact iterates_skip (by simp [Ne.symm ht, hbs]) rest out
  cases m with
  | setParam id value => simpa [response] using hskip _ _ rfl (by decide) hm
  | getParam id => simpa [response] using hskip _ _ rfl (by decide) hm
  | process b =>
    rw [(Message.process b).encode_eq]
    exact Iterates.head (body_process b.planar rest out) (Iterates.refl _)

theorem iterates_messages {ms : List Message} (hms : ∀ m ∈ ms, Skippable m)
    (rest out : List UInt8) :
    Iterates body ⟨Message.encodeAll ms ++ rest, out⟩ ⟨rest, out ++ ms.flatMap response⟩ := by
  induction ms generalizing out with
  | nil => simpa [Message.encodeAll] using Iterates.refl _
  | cons m ms ih =>
    have hhead := iterates_message (hms m List.mem_cons_self) (Message.encodeAll ms ++ rest) out
    have htail := ih (fun x hx => hms x (List.mem_cons_of_mem m hx)) (out ++ response m)
    rw [List.append_assoc] at htail
    have hcons : Message.encodeAll (m :: ms) = m.encode ++ Message.encodeAll ms := List.flatMap_cons
    rw [hcons, List.append_assoc, List.flatMap_cons]
    exact hhead.trans htail

theorem run_messages {ms : List Message} (hms : ∀ m ∈ ms, Skippable m) (out : List UInt8) :
    run ⟨Message.encodeAll ms, out⟩ = (⟨[], out ++ startLog ++ ms.flatMap response⟩, some .eof) := by
  have hit := iterates_messages hms [] (out ++ startLog)
  rw [List.append_nil] at hit
  unfold run
  apply loop_of_iterates body_shrinks hit rfl
  exact Nat.lt_succ_self _

/-- A PROCESS tag in the body of a frame of at most thirteen bytes hides the next boundary: the
loop gets to that tag, and the iteration there ends beyond the boundary or not at all. -/
theorem boundary_lost {bs rest out out' : List UInt8} {b : UInt8} (hb : b ≠ FrameTag.process.code)
    (hmem : FrameTag.process.code ∈ bs) (hlen : bs.length ≤ 12) :
    ¬ Iterates body ⟨b :: bs ++ rest, out⟩ ⟨rest, out'⟩ := by
  intro hit
  obtain ⟨as, cs, rfl, has⟩ := List.eq_append_cons_of_mem hmem
  rw [List.length_append, List.length_cons] at hlen
  have hsplit : b :: (as ++ FrameTag.process.code :: cs) ++ rest =
      b :: as ++ FrameTag.process.code :: (cs ++ rest) := by simp
  rw [hsplit] at hit
  have hto : Iterates body ⟨b :: as ++ FrameTag.process.code :: (cs ++ rest), out⟩
      ⟨FrameTag.process.code :: (cs ++ rest), out⟩ :=
    iterates_skip (by simp [Ne.symm hb, has]) _ out
  have hlong : rest.length < (FrameTag.process.code :: (cs ++ rest)).length := by
    rw [List.length_cons, List.length_append]
    omega
  rcases hto.comparable hit with h | h
  · rcases Relation.ReflTransGen.cases_head h with heq | ⟨u, hu, hrest⟩
    · rw [(Stdio.mk.inj heq).1] at hlong
      exact Nat.lt_irrefl _ hlong
    · have hle := body_takes_header hu
      have hmono := iterates_length hrest
      rw [List.length_append] at hle
      simp only at hmono
      omega
  · have hmono := iterates_length h
    simp only at hmono
    omega

theorem not_aligned {ms : List Message} {m : Message} (hm : m ∈ ms) (hbad : ¬ Skippable m) :
    ¬ Aligned ms := by
  intro hal
  obtain ⟨pre, post, rfl⟩ := List.append_of_mem hm
  have hhere := hal pre (m :: post) rfl
  have hnext := hal (pre ++ [m]) post (by simp)
  have hlen : ∀ as, (Message.encodeAll (m :: as)).length = m.encode.length +
      (Message.encodeAll as).length := fun as => by simp [Message.encodeAll]
  have hlost : ∀ t bs out out', m.encode = t :: bs → t ≠ FrameTag.process.code →
      FrameTag.process.code ∈ bs → bs.length ≤ 12 →
      ¬ Iterates body ⟨Message.encodeAll (m :: post), out⟩ ⟨Message.encodeAll post, out'⟩ := by
    intro t bs out out' he ht hbs hle
    have hcons : Message.encodeAll (m :: post) = t :: bs ++ Message.encodeAll post := by
      rw [← he]
      exact List.flatMap_cons
    rw [hcons]
    exact boundary_lost ht hbs hle
  have hreach : Iterates body ⟨Message.encodeAll (m :: post), startLog ++ pre.flatMap response⟩
      ⟨Message.encodeAll post, startLog ++ (pre ++ [m]).flatMap response⟩ := by
    rcases hhere.comparable hnext with h | h
    · exact h
    · have hmono := iterates_length h
      have hpos : 0 < m.encode.length := by rw [m.encode_eq]; exact Nat.succ_pos _
      simp only [hlen] at hmono
      omega
  cases m with
  | setParam id value =>
    exact hlost _ _ _ _ rfl (by decide) (not_not.mp hbad) (by simp) hreach
  | getParam id =>
    exact hlost _ _ _ _ rfl (by decide) (not_not.mp hbad) (by simp) hreach
  | process b => exact hbad trivial

/-- The loop stays on frame boundaries exactly when no SET_PARAM or GET_PARAM frame has the
PROCESS tag among the bytes of its id and value. -/
theorem aligned_iff (ms : List Message) : Aligned ms ↔ ∀ m ∈ ms, Skippable m := by
  constructor
  · intro hal m hm
    by_contra hbad
    exact not_aligned hm hbad hal
  · rintro hms pre post rfl
    have happ : Message.encodeAll (pre ++ post) = Message.encodeAll pre ++ Message.encodeAll post :=
      List.flatMap_append
    rw [happ]
    apply iterates_messages
    intro m hm
    exact hms m (List.mem_append_left post hm)

/-- Setting parameter 2 to zero is enough. -/
theorem setParam_two_not_aligned : ¬ Aligned [.setParam (.ofInt 2) 0] :=
  not_aligned List.mem_cons_self (by unfold Skippable; decide)

end Vst3Host
end Wasivst
