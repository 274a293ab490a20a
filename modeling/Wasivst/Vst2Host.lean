import Wasivst.Lib.Ieee754
import Wasivst.Lib.Transition
import Wasivst.SerialChannel

/-!
# `Vst2Host::run`

The plugin is any state machine with the three entry points that the loop calls. The loop is
first the code's: a tag, a body, a handler, with 32-bit index arithmetic and bounds checked on
every access to `samples`. `Sequential` is what it is for: a plugin that is asked one question
at a time. `run_refines` says that on well-formed frames the bytes written are its answers.
-/

set_option autoImplicit false

namespace Wasivst
open LittleEndian StreamReader Transition Ieee754

/-- A plugin instance. `processReplacing` stores only inside the output buffers it is given. -/
structure Plugin (σ : Type) where
  setParameter : σ → Int32 → UInt32 → σ
  getParameter : σ → Int32 → σ × UInt32
  processReplacing : σ → List (List UInt32) → List (List UInt32) → Int32 → σ × List (List UInt32)
  keeps_shape : ∀ p ins outs n,
    (processReplacing p ins outs n).2.map List.length = outs.map List.length

structure HostState (σ : Type) where
  stdin : List UInt8
  stdout : List UInt8
  plugin : σ

inductive Request where
  | process (frame : ProcessFrame)
  | setParam (p : ParamFrame)
  | getParam (id : UInt32)
  | unknown

namespace Vst2Host
open SerialChannel

variable {σ : Type} (P : Plugin σ)

def readRequest : Input Request := do
  match ← readNextTag with
  | some .process => Request.process <$> readProcessFrameBody
  | some .setParam => Request.setParam <$> readSetParamFrameBody
  | some .getParam => Request.getParam <$> readGetParamFrameBody
  | _ => pure .unknown

/-- `in_bufs[c][s] = frame.samples[c * n + s]`, the index being a `uint32_t`. -/
def sampleAt (frame : ProcessFrame) (c s : Nat) : Except HostFault UInt32 :=
  match frame.samples[(UInt32.ofNat c * frame.sampleCount + UInt32.ofNat s).toNat]? with
  | some w => .ok w
  | none => .error .outOfBounds

def inBufs (frame : ProcessFrame) : Except HostFault (List (List UInt32)) :=
  (List.range frame.channelCount.toNat).mapM fun c =>
    (List.range frame.sampleCount.toNat).mapM fun s => sampleAt frame c s

def zeroBufs (ch n : UInt32) : List (List UInt32) :=
  List.replicate ch.toNat (List.replicate n.toNat 0)

def processBlock (frame : ProcessFrame) (h : HostState σ) : Except HostFault (HostState σ) := do
  let n := frame.sampleCount
  let ch := frame.channelCount
  let ins ← inBufs frame
  let r := P.processReplacing h.plugin ins (zeroBufs ch n) n.toInt32
  pure { h with plugin := r.1, stdout := h.stdout ++ writeProcessResp n ch r.2 }

def handleSetParam (p : ParamFrame) (h : HostState σ) : HostState σ :=
  { h with plugin := P.setParameter h.plugin p.id.toInt32 (narrow p.value) }

def handleGetParam (id : UInt32) (h : HostState σ) : HostState σ :=
  let r := P.getParameter h.plugin id.toInt32
  { h with plugin := r.1, stdout := h.stdout ++ writeGetParamResp id (widen r.2) }

def serve (request : Request) (h : HostState σ) : Except HostFault (HostState σ) :=
  match request with
  | .process frame => processBlock P frame h
  | .setParam p => .ok (handleSetParam P p h)
  | .getParam id => .ok (handleGetParam P id h)
  | .unknown =>
    let line := writeLog 3 (.literal "vst2-host") (.literal "unknown frame tag")
    .ok { h with stdout := h.stdout ++ line }

/-- The body of `while (true)`. -/
def body (h : HostState σ) : Except HostFault (HostState σ) :=
  match readRequest.run h.stdin with
  | .error e => .error e
  | .ok (request, rest) => serve P request { h with stdin := rest }

def run (h : HostState σ) : HostState σ × Option HostFault :=
  loop (body P) (h.stdin.length + 1) h

/-- The constructor writes it last, when the plugin is open. -/
def openedLog : List UInt8 := writeLog 1 (.literal "vst2-host") (.literal "plugin loaded and activated")

/-! ## Reading -/

theorem takes_request : Takes 1 readRequest := by
  refine takes_nextTag.bind (k := 0) fun tag => ?_
  split
  · exact (takes_processBody.map _).mono (Nat.zero_le _)
  · exact (takes_setParamBody.map _).mono (Nat.zero_le _)
  · exact (takes_getParamBody.map _).mono (Nat.zero_le _)
  · exact Takes.pure _

def request : WorkletFrame → Request
  | .process b => .process ⟨b.sampleCount, b.channelCount, b.samples⟩
  | .setParam id value => .setParam ⟨id, value⟩
  | .getParam id => .getParam id

theorem consumes_frame (f : WorkletFrame) : Consumes readRequest f.bytes (request f) := by
  have htag := consumes_nextTag f.tag.code
  rw [FrameTag.ofByte_code] at htag
  cases f with
  | process b => exact htag.bind ((consumes_processBody b).map Request.process)
  | setParam id value => exact htag.bind ((consumes_setParamBody id value).map Request.setParam)
  | getParam id => exact htag.bind ((consumes_getParamBody id).map Request.getParam)

/-! ## De-interleaving -/

theorem mapM_ok {α γ : Type} {f : α → Except HostFault γ} {g : α → γ} {xs : List α}
    (h : ∀ x ∈ xs, f x = .ok (g x)) : xs.mapM f = .ok (xs.map g) := by
  induction xs with
  | nil => rfl
  | cons x xs ih =>
    rw [List.mapM_cons, h x List.mem_cons_self, ih fun y hy => h y (List.mem_cons_of_mem x hy)]
    rfl

/-- No index of a well-formed block wraps: it is below the number of samples. -/
theorem sampleAt_planar (b : PlanarBlock) {c s : Nat} (hc : c < b.channels.length)
    (hs : s < b.sampleCount.toNat) :
    sampleAt ⟨b.sampleCount, b.channelCount, b.samples⟩ c s =
      .ok ((b.channels.getD c []).getD s 0) := by
  have hlen := b.planar _ (List.getElem_mem hc)
  have hrow : c * b.sampleCount.toNat + b.sampleCount.toNat ≤
      b.channels.length * b.sampleCount.toNat := by
    rw [← Nat.succ_mul]
    exact Nat.mul_le_mul_right _ hc
  have haudio := b.audio_lt
  have hcl := b.channels_lt
  have hsl := b.sampleCount.toNat_lt
  have hindex : (UInt32.ofNat c * b.sampleCount + UInt32.ofNat s).toNat =
      c * b.sampleCount.toNat + s := by
    rw [UInt32.toNat_add, UInt32.toNat_mul, UInt32.toNat_ofNat', UInt32.toNat_ofNat',
      Nat.mod_eq_of_lt (by omega : c < 2 ^ 32), Nat.mod_eq_of_lt (by omega : s < 2 ^ 32),
      Nat.mod_eq_of_lt (by omega : c * b.sampleCount.toNat < 2 ^ 32), Nat.mod_eq_of_lt (by omega)]
  have hget := getElem?_flatten_of_planar b.planar hs (List.getElem?_eq_getElem hc)
  unfold sampleAt
  rw [hindex, Planes.samples, hget, List.getElem?_eq_getElem (by omega)]
  simp [hc, hlen, hs]

theorem inBufs_planar (b : PlanarBlock) :
    inBufs ⟨b.sampleCount, b.channelCount, b.samples⟩ = .ok b.channels := by
  have hrow : ∀ c ∈ List.range b.channels.length,
      ((List.range b.sampleCount.toNat).mapM fun s =>
        sampleAt ⟨b.sampleCount, b.channelCount, b.samples⟩ c s) =
      .ok (b.channels.getD c []) := by
    intro c hmem
    have hc := List.mem_range.mp hmem
    have hlen := b.planar _ (List.getElem_mem hc)
    rw [mapM_ok (g := fun s => (b.channels[c]).getD s 0)]
    · congr 1
      apply List.ext_getElem
      · simp [hlen, hc]
      · intro i h1 h2
        have hi : i < (b.channels[c]).length := by simpa [hc] using h2
        simp [hc, hi]
    · intro s hs
      rw [List.mem_range] at hs
      rw [sampleAt_planar b hc hs]
      simp [hc]
  unfold inBufs
  rw [b.channelCount_toNat, mapM_ok hrow]
  congr 1
  apply List.ext_getElem
  · simp
  · intro i h1 h2
    simp_all

/-! ## The sequential plugin -/

@[simp] theorem zeroBufs_length (ch n : UInt32) : (zeroBufs ch n).length = ch.toNat := by
  simp [zeroBufs]

theorem outs_length (p : σ) (ins outs : List (List UInt32)) (n : Int32) :
    (P.processReplacing p ins outs n).2.length = outs.length := by
  simpa using congrArg List.length (P.keeps_shape p ins outs n)

namespace Sequential

def answer (p : σ) (b : PlanarBlock) : Planes where
  sampleCount := b.sampleCount
  channels := (P.processReplacing p b.channels (zeroBufs b.channelCount b.sampleCount)
    b.sampleCount.toInt32).2
  planar ch hch := by
    have hmem := List.mem_map_of_mem (f := List.length) hch
    rw [P.keeps_shape] at hmem
    simp only [zeroBufs, List.map_replicate, List.length_replicate] at hmem
    exact List.eq_of_mem_replicate hmem
  channels_lt := by
    rw [outs_length, zeroBufs_length, b.channelCount_toNat]
    exact b.channels_lt

theorem answer_length (p : σ) (b : PlanarBlock) :
    (answer P p b).channels.length = b.channels.length := by
  unfold answer
  rw [outs_length, zeroBufs_length, b.channelCount_toNat]

/-- One question to the plugin and the frame that answers it, if any does. -/
def step (p : σ) : WorkletFrame → σ × List UInt8
  | .process b =>
    ((P.processReplacing p b.channels (zeroBufs b.channelCount b.sampleCount)
      b.sampleCount.toInt32).1, processRespFrame (answer P p b))
  | .setParam id value => (P.setParameter p id.toInt32 (narrow value), [])
  | .getParam id =>
    let r := P.getParameter p id.toInt32
    (r.1, getParamRespFrame id (widen r.2))

def run (p : σ) : List WorkletFrame → σ × List UInt8
  | [] => (p, [])
  | f :: fs =>
    let r := step P p f
    let r' := run r.1 fs
    (r'.1, r.2 ++ r'.2)

end Sequential

theorem serve_frame (f : WorkletFrame) (h : HostState σ) :
    serve P (request f) h = .ok { h with
      plugin := (Sequential.step P h.plugin f).1
      stdout := h.stdout ++ (Sequential.step P h.plugin f).2 } := by
  cases f with
  | process b =>
    have hcount : b.channelCount = (Sequential.answer P h.plugin b).channelCount := by
      unfold Planes.channelCount
      rw [Sequential.answer_length]
    have hwrite := writeProcessResp_planes (Sequential.answer P h.plugin b)
    rw [← hcount] at hwrite
    simp only [serve, request, processBlock, inBufs_planar, Sequential.step, ← hwrite]
    rfl
  | setParam id value => simp [serve, request, handleSetParam, Sequential.step]
  | getParam id => rfl

theorem body_frame (f : WorkletFrame) (rest out : List UInt8) (p : σ) :
    body P ⟨f.bytes ++ rest, out, p⟩ =
      .ok ⟨rest, out ++ (Sequential.step P p f).2, (Sequential.step P p f).1⟩ := by
  have hread : readRequest.run (f.bytes ++ rest) = .ok (request f, rest) := consumes_frame f rest
  simp only [body, hread, serve_frame]

theorem body_stream (fs : List WorkletFrame) (out : List UInt8) (p : σ) :
    Iterates (body P) ⟨WorkletFrame.stream fs, out, p⟩
      ⟨[], out ++ (Sequential.run P p fs).2, (Sequential.run P p fs).1⟩ := by
  induction fs generalizing out p with
  | nil => simpa [WorkletFrame.stream, Sequential.run] using Iterates.refl _
  | cons f fs ih =>
    have hstep := body_frame P f (WorkletFrame.stream fs) out p
    have hrest := ih (out ++ (Sequential.step P p f).2) (Sequential.step P p f).1
    rw [List.append_assoc] at hrest
    exact Iterates.head hstep hrest

theorem serve_stdin {r : Request} {h t : HostState σ} (hs : serve P r h = .ok t) :
    t.stdin = h.stdin := by
  cases r with
  | process frame =>
    simp only [serve, processBlock] at hs
    cases hi : inBufs frame with
    | error e => rw [hi] at hs; cases hs
    | ok ins => rw [hi] at hs; cases hs; rfl
  | setParam p => cases hs; rfl
  | getParam id => cases hs; rfl
  | unknown => cases hs; rfl

theorem body_shrinks (h t : HostState σ) (hb : body P h = .ok t) :
    t.stdin.length < h.stdin.length := by
  unfold body at hb
  split at hb
  · cases hb
  · rename_i r rest hr
    rw [serve_stdin P hb]
    exact takes_request _ _ _ hr

/-- Whatever is on the line, the loop ends by an exception. -/
theorem run_ends (h : HostState σ) :
    ∃ t e, Iterates (body P) h t ∧ body P t = .error e ∧ run P h = (t, some e) :=
  loop_ends (body_shrinks P) h _ (Nat.lt_succ_self _)

/-- On well-formed frames the host is the sequential plugin: its answers, in request order, are
all that is written, and the loop ends only because the input does. -/
theorem run_refines (fs : List WorkletFrame) (out : List UInt8) (p : σ) :
    run P ⟨WorkletFrame.stream fs, out, p⟩ =
      (⟨[], out ++ (Sequential.run P p fs).2, (Sequential.run P p fs).1⟩, some .eof) :=
  loop_of_iterates (body_shrinks P) (body_stream P fs out p) rfl _ (Nat.lt_succ_self _)

end Vst2Host
end Wasivst
