import Wasivst.Encoder
import Wasivst.Vst2Host

/-!
# The calls of `processReplacing`

An `AEffect` announces how many inputs and outputs it has and is told the block size once, by the
constructor. Here its calls are written down as `Vst2Host::run` makes them.
-/

set_option autoImplicit false

namespace Wasivst
open LittleEndian Transition

structure AEffect (σ : Type) extends Plugin σ where
  numInputs : Int32
  numOutputs : Int32

/-- An array of pointers is the list of the buffers that they point to. -/
structure ProcessCall where
  inputs : List (List UInt32)
  outputs : List (List UInt32)
  sampleFrames : Int32

namespace Vst2Host
variable {σ : Type} (P : Plugin σ) (e : AEffect σ)

/-- The value of `effSetBlockSize`. -/
def blockSize : Int := 512

structure ContractKept (c : ProcessCall) : Prop where
  inputs : e.numInputs.toInt ≤ c.inputs.length
  outputs : e.numOutputs.toInt ≤ c.outputs.length
  input_buffers : ∀ b ∈ c.inputs, c.sampleFrames.toInt ≤ b.length
  output_buffers : ∀ b ∈ c.outputs, c.sampleFrames.toInt ≤ b.length
  nonneg : 0 ≤ c.sampleFrames.toInt
  block : c.sampleFrames.toInt ≤ blockSize

/-- The plugin with the calls that it has had. -/
def recorded : Plugin (σ × List ProcessCall) where
  setParameter s index value := (P.setParameter s.1 index value, s.2)
  getParameter s index :=
    let r := P.getParameter s.1 index
    ((r.1, s.2), r.2)
  processReplacing s ins outs n :=
    let r := P.processReplacing s.1 ins outs n
    ((r.1, s.2 ++ [⟨ins, outs, n⟩]), r.2)
  keeps_shape s ins outs n := P.keeps_shape s.1 ins outs n

def call : WorkletFrame → Option ProcessCall
  | .process b =>
    some ⟨b.channels, zeroBufs b.channelCount b.sampleCount, b.sampleCount.toInt32⟩
  | _ => none

theorem recorded_step (p : σ) (calls : List ProcessCall) (f : WorkletFrame) :
    Sequential.step (recorded P) (p, calls) f =
      (((Sequential.step P p f).1, calls ++ (call f).toList), (Sequential.step P p f).2) := by
  cases f with
  | process b => rfl
  | setParam id value => simp [Sequential.step, recorded, call]
  | getParam id => simp [Sequential.step, recorded, call]

/-- Writing the calls down changes none of the answers. -/
theorem recorded_run (p : σ) (calls : List ProcessCall) (fs : List WorkletFrame) :
    Sequential.run (recorded P) (p, calls) fs =
      (((Sequential.run P p fs).1, calls ++ fs.filterMap call), (Sequential.run P p fs).2) := by
  induction fs generalizing p calls with
  | nil => simp [Sequential.run]
  | cons f fs ih =>
    have hcalls : (f :: fs).filterMap call = (call f).toList ++ fs.filterMap call := by
      cases h : call f <;> simp [h]
    simp only [Sequential.run, recorded_step, ih, hcalls, List.append_assoc]

/-- The calls of a run on what the worklet side sends. -/
theorem run_calls (p : σ) (out : List UInt8) (ms : List Message) :
    (run (recorded P) ⟨Message.encodeAll ms, out, (p, [])⟩).1.plugin.2 =
      (ms.map Message.frame).filterMap call := by
  rw [Message.encodeAll_eq, run_refines, recorded_run]
  exact List.nil_append _

theorem toInt_toInt32_le (n : UInt32) : n.toInt32.toInt ≤ n.toNat := by
  have heq : n.toInt32.toInt = n.toBitVec.toInt := rfl
  rw [heq, BitVec.toInt_eq_toNat_cond]
  split_ifs <;> simp

theorem sampleFrames_iff (n : UInt32) :
    (0 ≤ n.toInt32.toInt ∧ n.toInt32.toInt ≤ blockSize) ↔ n.toNat ≤ 512 := by
  have heq : n.toInt32.toInt = n.toBitVec.toInt := rfl
  have hnat : n.toBitVec.toNat = n.toNat := rfl
  have hlt := n.toNat_lt
  rw [heq, BitVec.toInt_eq_toNat_cond, hnat, blockSize]
  split_ifs with h
  · omega
  · push_cast
    omega

/-- A block has a buffer with its samples for every channel of its own. -/
theorem contractKept_iff (b : AudioBlock) :
    (∀ c ∈ call (.process b.planar), ContractKept e c) ↔
      e.numInputs.toInt ≤ b.channels.length ∧ e.numOutputs.toInt ≤ b.channels.length ∧
        b.sampleCount ≤ 512 := by
  have hlength := b.planar_length
  have houtputs : (zeroBufs b.planar.channelCount b.planar.sampleCount).length =
      b.channels.length := by
    rw [zeroBufs_length, Planes.channelCount_toNat, hlength]
  have hframes := toInt_toInt32_le b.planar.sampleCount
  have hblock := sampleFrames_iff b.planar.sampleCount
  rw [b.planar_sampleCount] at hblock hframes
  simp only [call, Option.mem_def, Option.some.injEq, forall_eq']
  constructor
  · rintro ⟨hin, hout, _, _, hnonneg, hmax⟩
    rw [houtputs] at hout
    rw [hlength] at hin
    exact ⟨hin, hout, hblock.mp ⟨hnonneg, hmax⟩⟩
  · rintro ⟨hin, hout, hmax⟩
    obtain ⟨hnonneg, hle⟩ := hblock.mpr hmax
    refine ⟨by rwa [hlength], by rwa [houtputs], ?_, ?_, hnonneg, hle⟩
    · intro ch hch
      rw [b.planar.planar ch hch, b.planar_sampleCount]
      exact hframes
    · intro ch hch
      obtain rfl := List.eq_of_mem_replicate hch
      rw [List.length_replicate, b.planar_sampleCount]
      exact hframes

/-- In every run on frames of the worklet side, the calls keep the contract exactly as long as
each block has the channels of the plugin and no more samples than the block size. -/
theorem run_contractKept_iff (p : σ) (out : List UInt8) (ms : List Message) :
    (∀ c ∈ (run (recorded e.toPlugin) ⟨Message.encodeAll ms, out, (p, [])⟩).1.plugin.2,
        ContractKept e c) ↔
      ∀ b, Message.process b ∈ ms → e.numInputs.toInt ≤ b.channels.length ∧
        e.numOutputs.toInt ≤ b.channels.length ∧ b.sampleCount ≤ 512 := by
  rw [run_calls]
  simp only [← contractKept_iff]
  constructor
  · intro h b hb c hc
    exact h c (List.mem_filterMap.mpr ⟨_, List.mem_map_of_mem hb, hc⟩)
  · intro h c hc
    obtain ⟨f, hf, hcall⟩ := List.mem_filterMap.mp hc
    obtain ⟨m, hm, rfl⟩ := List.mem_map.mp hf
    cases m with
    | process b => exact h b hm c hcall
    | setParam id value => cases hcall
    | getParam id => cases hcall

def stereoSilence : AEffect Unit where
  setParameter p _ _ := p
  getParameter p _ := (p, 0)
  processReplacing p _ outs _ := (p, outs)
  keeps_shape _ _ _ _ := rfl
  numInputs := 2
  numOutputs := 2

/-- A block without channels for a stereo plugin. -/
theorem no_channels_for_stereo : ¬ ∀ (σ : Type) (e : AEffect σ) (p : σ) (out : List UInt8)
    (ms : List Message), ∀ c ∈
      (run (recorded e.toPlugin) ⟨Message.encodeAll ms, out, (p, [])⟩).1.plugin.2,
        ContractKept e c := by
  intro h
  have hcalls := h Unit stereoSilence () [] [.process ⟨[], .canonical, by decide, by decide, by decide⟩]
  rw [run_calls] at hcalls
  have hin := (hcalls _ List.mem_cons_self).inputs
  exact absurd hin (by decide)

end Vst2Host
end Wasivst
