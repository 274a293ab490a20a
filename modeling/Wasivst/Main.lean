import Wasivst.Encoder
import Wasivst.Vst2Host
import Wasivst.Vst3Host

/-!
# `main`: one session on the serial line

`main` takes the LOAD frame, chooses a host and leaves the rest of the stream to its loop. For a
VST2 plugin `parse` lists what the loop makes of that rest, each request with the input it leaves,
so that a read beyond its own frame would show.
-/

set_option autoImplicit false

namespace Wasivst
open Ieee754 LittleEndian StreamReader Transition Js

namespace Main
open SerialChannel

def readPluginPath : Input (List UInt8) := do
  match ← readNextTag with
  | some .load => readLoadFrameBody
  | _ => fun _ => .error .expectedLoad

/-- The last five bytes of the path are `.vst3`. -/
def isVst3 (path : List UInt8) : Bool :=
  5 ≤ path.length && path.drop (path.length - 5) == ".vst3".toUTF8.data.toList

inductive HostKind where
  | vst2
  | vst3
  deriving DecidableEq

/-- `withVst3` is the build option of the same name. -/
def hostFor (withVst3 : Bool) (path : List UInt8) : HostKind :=
  if withVst3 && isVst3 path then .vst3 else .vst2

/-- A session in which the library named by the path loads and its plugin opens in the state
`opened path`: what is written to `stdout`, and the exception at the end. -/
def main {σ : Type} (withVst3 : Bool) (P : Plugin σ) (opened : List UInt8 → σ) (stdin : List UInt8) :
    List UInt8 × Option HostFault :=
  match readPluginPath.run stdin with
  | .error e => ([], some e)
  | .ok (path, rest) =>
    match hostFor withVst3 path with
    | .vst2 =>
      let r := Vst2Host.run P ⟨rest, Vst2Host.openedLog, opened path⟩
      (r.1.stdout, r.2)
    | .vst3 =>
      let r := Vst3Host.run ⟨rest, Vst3Host.loadedLog⟩
      (r.1.stdout, r.2)

/-- The plugin path, and the argument of every handler that `Vst2Host::run` calls after it. -/
def parse (stdin : List UInt8) : Except HostFault (List UInt8 × List (Request × List UInt8)) :=
  match readPluginPath.run stdin with
  | .error e => .error e
  | .ok (path, rest) => .ok (path, readAll Vst2Host.readRequest rest.length rest)

/-- The loop calls precisely the handlers of `parse`, in its order, for as long as none of them
faults. -/
theorem run_serves_parsed {σ : Type} (P : Plugin σ) (n : Nat) (h t : HostState σ)
    (hn : h.stdin.length ≤ n)
    (hserve : (readAll Vst2Host.readRequest n h.stdin).foldlM
      (fun s r => Vst2Host.serve P r.1 { s with stdin := r.2 }) h = .ok t) :
    ∃ e, Vst2Host.run P h = (t, some e) := by
  suffices hit : Iterates (Vst2Host.body P) h t ∧ ∃ e, Vst2Host.body P t = .error e by
    obtain ⟨hht, e, he⟩ := hit
    refine ⟨e, ?_⟩
    unfold Vst2Host.run
    apply loop_of_iterates (Vst2Host.body_shrinks P) hht he
    exact Nat.lt_succ_self _
  induction n generalizing h with
  | zero =>
    have hnil : h.stdin = [] := List.length_eq_zero_iff.mp (Nat.le_zero.mp hn)
    cases hserve
    exact ⟨Iterates.refl _, .eof, by rw [Vst2Host.body, hnil]; rfl⟩
  | succ n ih =>
    rw [readAll] at hserve
    cases hr : Vst2Host.readRequest.run h.stdin with
    | error e =>
      rw [hr] at hserve
      cases hserve
      exact ⟨Iterates.refl _, e, by simp [Vst2Host.body, hr]⟩
    | ok v =>
      have hlt := Vst2Host.takes_request _ _ _ hr
      simp only [hr, List.foldlM_cons] at hserve
      cases hs : Vst2Host.serve P v.1 { h with stdin := v.2 } with
      | error e => rw [hs] at hserve; cases hserve
      | ok h' =>
        rw [hs] at hserve
        have hin : h'.stdin = v.2 := Vst2Host.serve_stdin P hs
        have hbody : Vst2Host.body P h = .ok h' := by simp [Vst2Host.body, hr, hs]
        obtain ⟨hht, he⟩ := ih h' (by rw [hin]; omega) (by rw [hin]; exact hserve)
        exact ⟨Iterates.head hbody hht, he⟩

/-! ## Streams of the worklet side -/

theorem consumes_load {path : List UInt8} (hlen : path.length < 2 ^ 32) :
    Consumes readPluginPath (loadFrame path) path := by
  have htag := consumes_nextTag FrameTag.load.code
  rw [FrameTag.ofByte_code] at htag
  exact htag.bind (consumes_loadBody hlen)

theorem readPluginPath_encoded {path : JsString} (hpath : (textEncode path).length < 2 ^ 32)
    (rest : List UInt8) :
    readPluginPath.run (WasiVST.encodeLoad path ++ rest) = .ok (textEncode path, rest) := by
  rw [encodeLoad_eq]
  exact consumes_load hpath rest

section Session
variable {σ : Type} {withVst3 : Bool} (P : Plugin σ) (opened : List UInt8 → σ) {path : JsString}
variable (hpath : (textEncode path).length < 2 ^ 32)
include hpath

/-- A VST2 session writes the line of the constructor and then the plugin's answers, no more. -/
theorem main_vst2 (hkind : hostFor withVst3 (textEncode path) = .vst2) (ms : List Message) :
    main withVst3 P opened (WasiVST.encodeLoad path ++ Message.encodeAll ms) =
      (Vst2Host.openedLog ++
        (Vst2Host.Sequential.run P (opened (textEncode path)) (ms.map Message.frame)).2, some .eof) := by
  have hit := Vst2Host.body_stream P (ms.map Message.frame) Vst2Host.openedLog
    (opened (textEncode path))
  have hrun := loop_of_iterates (Vst2Host.body_shrinks P) hit rfl _ (Nat.lt_succ_self _)
  unfold main
  rw [readPluginPath_encoded hpath]
  simp only [hkind, Message.encodeAll_eq, Vst2Host.run]
  rw [hrun]

/-- A VST3 session answers every block with silence, as long as its frames can be skipped. -/
theorem main_vst3 (hkind : hostFor withVst3 (textEncode path) = .vst3) {ms : List Message}
    (hms : ∀ m ∈ ms, Vst3Host.Skippable m) :
    main withVst3 P opened (WasiVST.encodeLoad path ++ Message.encodeAll ms) =
      (Vst3Host.loadedLog ++ Vst3Host.startLog ++ ms.flatMap Vst3Host.response, some .eof) := by
  unfold main
  rw [readPluginPath_encoded hpath]
  simp only [hkind, Vst3Host.run_messages hms]

end Session

/-- What a message asks for, field by field, with samples that are the `same`. -/
def Asks (same : UInt32 → UInt32 → Prop) : Message → Request → Prop
  | .setParam id value, r => r = .setParam ⟨id.toUint32, value⟩
  | .getParam id, r => r = .getParam id.toUint32
  | .process b, r => ∃ f, r = .process f ∧
      f.sampleCount.toNat = ((b.channels[0]?).map List.length).getD 128 ∧
      f.channelCount.toNat = b.channels.length ∧
      f.samples.length = b.channels.length * f.sampleCount.toNat ∧
      ∀ c s ch, b.channels[c]? = some ch → s < f.sampleCount.toNat →
        ∃ x, f.samples[c * f.sampleCount.toNat + s]? = some x ∧ same x (ch[s]?.getD 0)

theorem sampleCount_eq (channels : List (List UInt32)) :
    WasiVST.sampleCount channels = ((channels[0]?).map List.length).getD 128 := by
  cases channels <;> rfl

theorem asks_request (m : Message) : Asks SameNumber m (Vst2Host.request m.frame) := by
  cases m with
  | setParam id value => rfl
  | getParam id => rfl
  | process b =>
    refine ⟨_, rfl, ?_, ?_, ?_, ?_⟩
    · rw [b.planar_sampleCount, AudioBlock.sampleCount, sampleCount_eq]
    · rw [Planes.channelCount_toNat, b.planar_length]
    · rw [Planes.samples_length, b.planar_length]
    · intro c s ch hc hs
      have hrow : b.planar.channels[c]? = some (AudioBlock.fit b.engine b.sampleCount c ch) := by
        simp [AudioBlock.planar, hc]
      have hget := getElem?_flatten_of_planar b.planar.planar hs hrow
      rw [b.planar_sampleCount] at hs
      refine ⟨b.engine.float32 c s (ch[s]?.getD 0), ?_, Engine.sameNumber_float32 _ _ _ _⟩
      unfold Planes.samples
      rw [hget]
      simp [AudioBlock.fit, hs]

theorem parse_stream {path : JsString} (hpath : (textEncode path).length < 2 ^ 32)
    (ms : List Message) :
    parse (WasiVST.encodeLoad path ++ Message.encodeAll ms) =
      .ok (textEncode path, pieces Message.encode (fun m => Vst2Host.request m.frame) ms) := by
  have hrest := readAll_of_consumes Vst2Host.takes_request Message.encode
    (fun m => Vst2Host.request m.frame)
    (fun m => by rw [m.encode_eq]; exact Vst2Host.consumes_frame m.frame) ms _ (Nat.le_refl _)
  unfold parse
  rw [readPluginPath_encoded hpath]
  exact congrArg (fun l => Except.ok (textEncode path, l)) hrest

/-- The host reads back what the worklet side wrote: the path, then one request a message, and
after each of them the input left is the encoding of the messages that follow. A session of a VST2
plugin is the plugin asked for just these, and ends with the input. -/
theorem parse_encoded (path : JsString) (ms : List Message)
    (hpath : (textEncode path).length < 2 ^ 32) :
    parse (WasiVST.encodeLoad path ++ Message.encodeAll ms) =
        .ok (textEncode path, pieces Message.encode (fun m => Vst2Host.request m.frame) ms) ∧
      (∀ m ∈ ms, Asks SameNumber m (Vst2Host.request m.frame)) ∧
      ∀ (σ : Type) (withVst3 : Bool) (P : Plugin σ) (opened : List UInt8 → σ),
        hostFor withVst3 (textEncode path) = .vst2 →
          main withVst3 P opened (WasiVST.encodeLoad path ++ Message.encodeAll ms) =
            (Vst2Host.openedLog ++ (Vst2Host.Sequential.run P (opened (textEncode path))
              (ms.map Message.frame)).2, some .eof) := by
  refine ⟨parse_stream hpath ms, fun m _ => asks_request m, ?_⟩
  intro σ withVst3 P opened hkind
  exact main_vst2 P opened hpath hkind ms

/-- Ragged channels, no channels and an id beyond 32 bits. -/
def ragged : List Message :=
  [.process ⟨[[1, 2], [3]], .canonical, by decide, by decide, by decide⟩,
    .process ⟨[], .canonical, by decide, by decide, by decide⟩, .getParam (.ofInt (2 ^ 32 + 7))]

theorem parse_encoded_ragged :
    parse (WasiVST.encodeLoad [0x61] ++ Message.encodeAll ragged) =
        .ok ([0x61], pieces Message.encode (fun m => Vst2Host.request m.frame) ragged) ∧
      (∀ m ∈ ragged, Asks SameNumber m (Vst2Host.request m.frame)) ∧
      ∀ (σ : Type) (withVst3 : Bool) (P : Plugin σ) (opened : List UInt8 → σ),
        hostFor withVst3 (textEncode [0x61]) = .vst2 →
          main withVst3 P opened (WasiVST.encodeLoad [0x61] ++ Message.encodeAll ragged) =
            (Vst2Host.openedLog ++ (Vst2Host.Sequential.run P (opened (textEncode [0x61]))
              (ragged.map Message.frame)).2, some .eof) :=
  parse_encoded [0x61] ragged (by decide)

/-- One sample, a NaN that the engine stores as another one. -/
def signalling : Message :=
  .process ⟨[[0x7FA00000]], .canonical, by decide, by decide, by decide⟩

theorem nan_not_kept : ¬ ∀ (path : JsString) (ms : List Message),
    (textEncode path).length < 2 ^ 32 →
      ∃ rs, parse (WasiVST.encodeLoad path ++ Message.encodeAll ms) = .ok (textEncode path, rs) ∧
        List.Forall₂ (fun m r => Asks (· = ·) m r.1) ms rs := by
  intro h
  obtain ⟨rs, hparse, hasks⟩ := h [0x61] [signalling] (by decide)
  rw [parse_stream (by decide)] at hparse
  obtain rfl := (Prod.mk.inj (Except.ok.inj hparse)).2
  cases hasks with
  | cons hm _ =>
    obtain ⟨f, hf, _, _, _, hsamples⟩ := hm
    cases hf
    obtain ⟨x, hx, rfl⟩ := hsamples 0 0 [0x7FA00000] rfl (by decide)
    exact absurd hx (by decide)

end Main
end Wasivst
