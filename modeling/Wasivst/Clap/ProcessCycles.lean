import Mathlib.Data.List.Forall2
import Wasivst.Clap.Process

/-!
# CLAP processing cycles

Any number of cycles over one pair of `Process` objects, one on the native side and one on the
Wine side. The host may use another format for a port in every cycle; the plugin is any function
that pushes events.
-/

set_option autoImplicit false

namespace Clap
open InPlace

/-- The host's data and the plugin of one cycle. -/
structure Cycle where
  host : ClapProcess
  plugin : Reconstructed → List GenericEvent
  supported : ∀ data, ∀ e ∈ plugin data, e.handled.isSome ∧ ¬ e.IsSysex

/-- The shared buffers of the native side and the pointers of the Wine side, which are set up for
the same ports and channels. -/
structure Setup where
  shared : AudioShmBufferConfig
  input_pointers : List (List UInt64)
  output_pointers : List (List UInt64)
  bounded : shared.Bounded
  inputs : input_pointers.map List.length = shared.input_offsets.map List.length
  outputs : output_pointers.map List.length = shared.output_offsets.map List.length

structure CycleResult where
  native : Process
  wine : Process
  data : Reconstructed
  pushed : List GenericEvent
  host : ClapProcess

/-- The native object, the Wine object and the data for the plugin. -/
def request (B : Bitsery) (setup : Setup) (native wine : Process) (host : ClapProcess) :
    Option (Process × Process × Reconstructed) := do
  let native ← native.repopulate host setup.shared
  let wine ← (Process.serialize B).transfer wine native
  let (wine, data) ← wine.reconstruct setup.input_pointers setup.output_pointers
  return (native.written, wine, data)

/-- The native object and the data of the host. -/
def respond (B : Bitsery) (native wine : Process) (host : ClapProcess) :
    Option (Process × ClapProcess) := do
  let native ← (Process.Response.serialize B).transfer native wine
  let host ← native.write_back_outputs host
  return (native, host)

/-- What is pushed to the `out_events` of the data. -/
def Process.push (p : Process) (es : List GenericEvent) : Process :=
  { p with out_events_ := es.foldl EventList.out_try_push p.out_events_ }

def Cycle.process (B : Bitsery) (setup : Setup) (native wine : Process) (c : Cycle) :
    Option CycleResult := do
  let (native, wine, data) ← request B setup native wine c.host
  let pushed := c.plugin data
  let wine := wine.push pushed
  let (native, host) ← respond B native wine c.host
  return { native, wine := Process.Response.written wine, data, pushed, host }

/-- A port of the host and what the plugin gets for it: if it has channels, exactly one pointer,
and that of the format that the host used. -/
def SameFormat (h b : AudioBuffer) : Prop :=
  b.channel_count = h.channel_count ∧
    (h.channel_count ≠ 0 → b.data32.isSome ≠ b.data64.isSome ∧
      b.data32.isSome = h.data32.isSome ∧ b.data64.isSome = h.data64.isSome)

structure Cycle.Separate (c : Cycle) (r : CycleResult) : Prop where
  inputs : List.Forall₂ SameFormat c.host.audio_inputs r.data.audio_inputs
  outputs : List.Forall₂ SameFormat c.host.outputs r.data.audio_outputs
  events : r.host.out_events.map some =
    c.host.out_events.map some ++ r.pushed.map GenericEvent.handled

/-- Every cycle is completed, with the formats and the events of that cycle. -/
def CyclesSeparate (B : Bitsery) (setup : Setup) : Process → Process → List Cycle → Prop
  | _, _, [] => True
  | native, wine, c :: cs => ∃ r, c.process B setup native wine = some r ∧ c.Separate r ∧
      CyclesSeparate B setup r.native r.wine cs

/-- The ports are within what was set up, and a port with channels has one of the pointers. -/
structure PortsConfigured (host : List AudioBuffer) (offsets : List (List UInt32)) : Prop where
  count : host.length ≤ offsets.length
  channels : ∀ p ∈ host.zip offsets, p.1.channel_count.toNat ≤ p.2.length
  format : ∀ h ∈ host, h.channel_count ≠ 0 → h.data32.isSome ≠ h.data64.isSome

/-- What a host may freely choose. -/
structure ClapProcess.Configured (h : ClapProcess) (setup : Setup) : Prop where
  inputs : PortsConfigured h.audio_inputs setup.shared.input_offsets
  outputs : PortsConfigured h.outputs setup.shared.output_offsets

/-- Neither list of events is longer than the serializer allows, and the pointer to the output
ports is not null. -/
structure Cycle.Bounded (c : Cycle) (setup : Setup) : Prop where
  host : c.host.Configured setup
  in_events : (c.host.in_events.filterMap Event.parse).length ≤ 2 ^ 16
  pushed : ∀ data, (c.plugin data).length ≤ 2 ^ 16
  output_ports : c.host.audio_outputs.isSome

/-! ## Formats -/

theorem hasData_of_format {h : AudioBuffer}
    (hformat : h.channel_count ≠ 0 → h.data32.isSome ≠ h.data64.isSome) :
    h.hasData ∨ h.channel_count = 0 := by
  by_cases hzero : h.channel_count = 0
  · exact Or.inr hzero
  · have hne := hformat hzero
    unfold AudioBuffer.hasData
    cases h32 : h.data32.isSome <;> cases h64 : h.data64.isSome <;> simp_all

theorem accepts_of_configured {h : ClapProcess} {setup : Setup} (hc : h.Configured setup) :
    Process.Accepts h setup.shared := by
  refine ⟨hc.inputs.count, hc.outputs.count, ?_, ?_⟩
  · intro b hb
    rcases List.mem_append.mp hb with hin | hout
    · exact hasData_of_format (hc.inputs.format b hin)
    · exact hasData_of_format (hc.outputs.format b hout)
  · exact fun p hp _ => hc.inputs.channels p hp

theorem dataPointer_isSome {pointers : List UInt64} (h : pointers.length ≠ 0) :
    (dataPointer pointers).isSome := by
  unfold dataPointer
  rw [if_neg]
  · rfl
  · simpa using h

/-- A channel count within the configuration is kept. -/
theorem minUInt32_of_le {n : Nat} {c : UInt32} (hn : n ≤ 8192) (hc : c.toNat ≤ n) :
    minUInt32 (UInt32.ofNat n) c = c := by
  unfold minUInt32
  split_ifs with hlt
  · rfl
  · apply UInt32.toNat_inj.mp
    rw [UInt32.lt_iff_toNat_lt, UInt32.toNat_ofNat'] at hlt
    rw [UInt32.toNat_ofNat']
    omega

theorem setPointer_sameFormat {h b : AudioBuffer} {pointer : Option (List UInt64)} (old : UInt8)
    (hcount : b.channel_count = h.channel_count)
    (hformat : h.channel_count ≠ 0 → h.data32.isSome ≠ h.data64.isSome)
    (hpointer : h.channel_count ≠ 0 → pointer.isSome) :
    SameFormat h (setPointer b.cleared (portType old h) pointer) := by
  have hkinds : AudioBufferType.Float32 ≠ AudioBufferType.Double64 := by decide
  refine ⟨?_, ?_⟩
  · unfold setPointer AudioBuffer.cleared
    split_ifs <;> exact hcount
  · intro hne
    have hone := hformat hne
    have hsome := hpointer hne
    unfold setPointer portType AudioBuffer.cleared
    cases h32 : h.data32.isSome with
    | true =>
      have h64 : h.data64.isSome = false := by simpa [h32] using hone
      simp [h64, hkinds, hsome]
    | false =>
      rw [h32] at hone
      have h64 := Bool.eq_true_of_not_eq_false fun hf => hone hf.symm
      simp [h64, hsome]

/-- Whatever the two objects held before, the pointers follow the formats of this cycle. -/
theorem ports_follow {host : List AudioBuffer} {offsets : List (List UInt32)}
    {pointers : List (List UInt64)} (hc : PortsConfigured host offsets)
    (hbounded : ∀ os ∈ offsets, os.length ≤ 8192)
    (hlayout : pointers.map List.length = offsets.map List.length)
    (olds : List AudioBuffer) (ts : List UInt8) :
    List.Forall₂ SameFormat host
      (setPointers ((portMetadata olds offsets host).map AudioBuffer.cleared)
        (portTypes ts host) pointers) := by
  rw [List.forall₂_iff_get]
  refine ⟨by simp [setPointers, portMetadata], ?_⟩
  intro i hi hi'
  have hoffsets : i < offsets.length := Nat.lt_of_lt_of_le hi hc.count
  have hpointers : i < pointers.length := by
    have hlen := congrArg List.length hlayout
    rw [List.length_map, List.length_map] at hlen
    omega
  have hwidth : pointers[i].length = offsets[i].length := by
    have hget := congrArg (·[i]?) hlayout
    simpa [hoffsets, hpointers] using hget
  have hchannels : host[i].channel_count.toNat ≤ offsets[i].length :=
    hc.channels (host[i], offsets[i])
      (List.mem_iff_getElem.mpr ⟨i, by simp [hi, hoffsets], by simp⟩)
  have hcount := minUInt32_of_le (hbounded _ (List.getElem_mem hoffsets)) hchannels
  have hpointer : host[i].channel_count ≠ 0 → (dataPointer pointers[i]).isSome := by
    intro hne
    apply dataPointer_isSome
    have hpos : host[i].channel_count.toNat ≠ 0 := fun h => hne (UInt32.toNat_inj.mp h)
    omega
  have hsame := setPointer_sameFormat (h := host[i])
    (b := { olds.getD i default with
      channel_count := minUInt32 (UInt32.ofNat offsets[i].length) host[i].channel_count
      latency := host[i].latency
      constant_mask := host[i].constant_mask })
    (ts.getD i AudioBufferType.Float32) hcount (hc.format _ (List.getElem_mem hi)) hpointer
  simpa [setPointers, portMetadata, portTypes, hi, hoffsets, hpointers] using hsame

/-! ## One cycle -/

variable {B : Bitsery} {setup : Setup}

@[simp] theorem portMetadata_length (olds host : List AudioBuffer) (offsets : List (List UInt32)) :
    (portMetadata olds offsets host).length = host.length := List.length_mapIdx

@[simp] theorem portTypes_length (olds : List UInt8) (host : List AudioBuffer) :
    (portTypes olds host).length = host.length := List.length_mapIdx

@[simp] theorem setPointers_length (bs : List AudioBuffer) (ts : List UInt8)
    (pointers : List (List UInt64)) : (setPointers bs ts pointers).length = bs.length :=
  List.length_mapIdx

theorem request_eq_some {native wine n w : Process} {host : ClapProcess} {data : Reconstructed} :
    request B setup native wine host = some (n, w, data) ↔
      ∃ n', native.repopulate host setup.shared = some n' ∧ (Process.serialize B).fits n' ∧
        ((Process.serialize B).put wine n').reconstruct setup.input_pointers
          setup.output_pointers = some (w, data) ∧ n = n'.written := by
  unfold request
  simp only [Option.bind_eq_bind, Option.bind_eq_some_iff, Codec.transfer_eq_some,
    Option.pure_def, Prod.exists, Option.some.injEq, Prod.mk.injEq]
  constructor
  · rintro ⟨n', hn, _, ⟨hfits, rfl⟩, _, _, hw, rfl, rfl, rfl⟩
    exact ⟨n', hn, hfits, hw, rfl⟩
  · rintro ⟨n', hn, hfits, hw, rfl⟩
    exact ⟨n', hn, _, ⟨hfits, rfl⟩, w, data, hw, rfl, rfl, rfl⟩

theorem respond_eq_some {native wine n : Process} {host host' : ClapProcess} :
    respond B native wine host = some (n, host') ↔
      (Process.Response.serialize B).fits wine ∧
      n = (Process.Response.serialize B).put native wine ∧
      n.write_back_outputs host = some host' :=
  Codec.transfer_pair_eq_some

theorem process_eq_some {native wine : Process} {c : Cycle} {r : CycleResult} :
    c.process B setup native wine = some r ↔
      ∃ n w, request B setup native wine c.host = some (n, w, r.data) ∧
        r.pushed = c.plugin r.data ∧ r.wine = Process.Response.written (w.push r.pushed) ∧
        respond B n (w.push r.pushed) c.host = some (r.native, r.host) := by
  obtain ⟨rn, rw', rd, rp, rh⟩ := r
  unfold Cycle.process
  simp only [Option.bind_eq_bind, Option.bind_eq_some_iff, Option.pure_def, Prod.exists,
    Option.some.injEq, CycleResult.mk.injEq]
  constructor
  · rintro ⟨n, w, data, hreq, n', h', hresp, rfl, rfl, rfl, rfl, rfl⟩
    exact ⟨n, w, hreq, rfl, rfl, hresp⟩
  · rintro ⟨n, w, hreq, rfl, rfl, hresp⟩
    exact ⟨n, w, rd, hreq, rn, rh, hresp, rfl, rfl, rfl, rfl, rfl⟩

/-- The Wine object and the data when the plugin is called. -/
structure Requested (host : ClapProcess) (wine : Process) (data : Reconstructed) : Prop where
  inputs : List.Forall₂ SameFormat host.audio_inputs data.audio_inputs
  outputs : List.Forall₂ SameFormat host.outputs data.audio_outputs
  wine_outputs : wine.audio_outputs_.length = host.outputs.length
  out_events : wine.out_events_ = ⟨[]⟩

theorem pointers_length {pointers : List (List UInt64)} {offsets : List (List UInt32)}
    (h : pointers.map List.length = offsets.map List.length) :
    pointers.length = offsets.length := by
  simpa using congrArg List.length h

theorem request_of_configured (native wine : Process) {host : ClapProcess}
    (hc : host.Configured setup) (hin : (host.in_events.filterMap Event.parse).length ≤ 2 ^ 16) :
    ∃ n w data, request B setup native wine host = some (n, w, data) := by
  have hinputs := Nat.le_trans hc.inputs.count setup.bounded.inputs
  have houtputs := Nat.le_trans hc.outputs.count setup.bounded.outputs
  obtain ⟨n, hn⟩ : ∃ n, native.repopulate host setup.shared = some n :=
    ⟨_, Process.repopulate_eq_some.mpr ⟨accepts_of_configured hc, rfl⟩⟩
  obtain ⟨_, heq⟩ := Process.repopulate_eq_some.mp hn
  have hfits : (Process.serialize B).fits n := by
    rw [Process.serialize_fits, heq]
    refine ⟨?_, ?_, ?_, ?_, (EventList.serialize_fits_parsed B host.in_events).mpr hin⟩
    all_goals
      simp only [portMetadata_length, portTypes_length]
      omega
  have hlengths : host.audio_inputs.length ≤ setup.input_pointers.length ∧
      host.outputs.length ≤ setup.output_pointers.length :=
    ⟨hc.inputs.count.trans_eq (pointers_length setup.inputs).symm,
      hc.outputs.count.trans_eq (pointers_length setup.outputs).symm⟩
  obtain ⟨⟨w, data⟩, hw⟩ : ∃ r, ((Process.serialize B).put wine n).reconstruct
      setup.input_pointers setup.output_pointers = some r := by
    refine ⟨_, Process.reconstruct_eq_some.mpr ⟨?_, rfl⟩⟩
    simpa [Process.serialize_put, Process.written, heq] using hlengths
  exact ⟨_, w, data, request_eq_some.mpr ⟨n, hn, hfits, hw, rfl⟩⟩

theorem requested_of_request {native wine n w : Process} {host : ClapProcess}
    {data : Reconstructed} (hc : host.Configured setup)
    (h : request B setup native wine host = some (n, w, data)) : Requested host w data := by
  obtain ⟨n', hn, _, hw, _⟩ := request_eq_some.mp h
  obtain ⟨_, rfl⟩ := Process.repopulate_eq_some.mp hn
  obtain ⟨_, heq⟩ := Process.reconstruct_eq_some.mp hw
  rw [Process.serialize_put] at heq
  obtain ⟨rfl, rfl⟩ := Prod.mk.inj heq
  exact
    { inputs := ports_follow hc.inputs setup.bounded.input setup.inputs _ _
      outputs := ports_follow hc.outputs setup.bounded.output setup.outputs _ _
      wine_outputs := by simp [Process.written]
      out_events := rfl }

/-! ## The plugin and the response -/

theorem Requested.push_out_events {host : ClapProcess} {wine : Process} {data : Reconstructed}
    (h : Requested host wine data) (es : List GenericEvent) :
    (wine.push es).out_events_ = ⟨es.filterMap Event.parse⟩ := by
  unfold Process.push
  rw [EventList.foldl_out_try_push, h.out_events]
  rfl

/-- None of the events that are pushed is left out. -/
theorem map_some_handled {es : List GenericEvent} (h : ∀ e ∈ es, e.handled.isSome) :
    (es.filterMap GenericEvent.handled).map some = es.map GenericEvent.handled := by
  induction es with
  | nil => rfl
  | cons e es ih =>
    rw [List.forall_mem_cons] at h
    obtain ⟨v, hv⟩ := Option.isSome_iff_exists.mp h.1
    simp [hv, ih h.2]

theorem separate_of_process {native wine : Process} {c : Cycle} {r : CycleResult}
    (hc : c.host.Configured setup) (h : c.process B setup native wine = some r) :
    c.Separate r ∧ ((c.plugin r.data).filterMap Event.parse).length ≤ 2 ^ 16 := by
  obtain ⟨n, w, hreq, hpushed, _, hresp⟩ := process_eq_some.mp h
  have hrequested := requested_of_request hc hreq
  have hout := hrequested.push_out_events r.pushed
  obtain ⟨hfits, hn, hwrite⟩ := respond_eq_some.mp hresp
  obtain ⟨_, _, hhost⟩ := Process.write_back_outputs_eq_some.mp hwrite
  rw [Process.Response.serialize_fits, hout, EventList.serialize_fits_parsed] at hfits
  have hsupported : ∀ e ∈ r.pushed, e.handled.isSome ∧ ¬ e.IsSysex := by
    rw [hpushed]
    exact c.supported r.data
  have hreceived : r.native.out_events_.write_back_outputs =
      r.pushed.filterMap GenericEvent.handled := by
    rw [hn, Process.Response.serialize_put, hout, EventList.serialize_put_parsed]
    exact (EventList.parsed_eq_handled_iff r.pushed).mpr fun e he => (hsupported e he).2
  refine ⟨⟨hrequested.inputs, hrequested.outputs, ?_⟩, hpushed ▸ hfits.2⟩
  rw [hhost, hreceived, List.map_append, map_some_handled fun e he => (hsupported e he).1]

theorem output_ports_of_process {native wine : Process} {c : Cycle} {r : CycleResult}
    (h : c.process B setup native wine = some r) : c.host.audio_outputs.isSome := by
  obtain ⟨_, _, _, _, _, hresp⟩ := process_eq_some.mp h
  obtain ⟨_, _, hwrite⟩ := respond_eq_some.mp hresp
  exact (Process.write_back_outputs_eq_some.mp hwrite).1

theorem process_of_bounded (native wine : Process) {c : Cycle} (hb : c.Bounded setup) :
    ∃ r, c.process B setup native wine = some r := by
  obtain ⟨n, w, data, hreq⟩ := request_of_configured (B := B) native wine hb.host hb.in_events
  have hrequested := requested_of_request hb.host hreq
  have houtputs := Nat.le_trans hb.host.outputs.count setup.bounded.outputs
  have hlen : (w.push (c.plugin data)).audio_outputs_.length = c.host.outputs.length :=
    hrequested.wine_outputs
  have hfits : (Process.Response.serialize B).fits (w.push (c.plugin data)) := by
    rw [Process.Response.serialize_fits, hrequested.push_out_events,
      EventList.serialize_fits_parsed]
    refine ⟨by omega, ?_⟩
    exact Nat.le_trans (List.length_filterMap_le _ _) (hb.pushed data)
  obtain ⟨host', hwrite⟩ : ∃ host', ((Process.Response.serialize B).put n
      (w.push (c.plugin data))).write_back_outputs c.host = some host' := by
    refine ⟨_, Process.write_back_outputs_eq_some.mpr ⟨hb.output_ports, ?_, rfl⟩⟩
    simpa [Process.Response.serialize_put] using hlen
  have hresp := respond_eq_some.mpr ⟨hfits, rfl, hwrite⟩
  exact ⟨⟨_, Process.Response.written (w.push (c.plugin data)), data, c.plugin data, host'⟩,
    process_eq_some.mpr ⟨n, w, hreq, rfl, rfl, hresp⟩⟩

/-! ## Whole runs -/

/-- In a run of any length every cycle has the formats and the events of its own. -/
theorem cycles_separate (B : Bitsery) {setup : Setup} {cs : List Cycle}
    (h : ∀ c ∈ cs, c.Bounded setup) : CyclesSeparate B setup .fresh .fresh cs := by
  have hall : ∀ native wine, CyclesSeparate B setup native wine cs := by
    induction cs with
    | nil => exact fun _ _ => trivial
    | cons c cs ih =>
      rw [List.forall_mem_cons] at h
      intro native wine
      obtain ⟨r, hr⟩ := process_of_bounded (B := B) native wine h.1
      exact ⟨r, hr, (separate_of_process h.1.host hr).1, ih h.2 r.native r.wine⟩
  exact hall .fresh .fresh

/-- A note in the core event space. -/
def noteEvent : GenericEvent where
  header := { size := 0, time := 0, space_id := CLAP_CORE_EVENT_SPACE_ID, type := 0, flags := 0 }
  note := default
  noteExpression := default
  paramValue := default
  paramMod := default
  paramGesture := default
  transport := default
  midi := default
  midiSysex_port_index := 0
  midiSysex_buffer := []
  midi2 := default

/-- A plugin that pushes the same note `n` times. -/
def noteCycle (host : ClapProcess) (n : Nat) : Cycle where
  host := host
  plugin _ := List.replicate n noteEvent
  supported := by
    intro _ e he
    obtain rfl := List.eq_of_mem_replicate he
    exact ⟨rfl, fun h => absurd h.2 (by decide)⟩

/-- One output port with one channel. -/
def monoSetup : Setup where
  shared := ⟨[], 4, [], [[0]]⟩
  input_pointers := []
  output_pointers := [[4096]]
  bounded := ⟨by decide, by decide, by decide, by decide, by decide⟩
  inputs := rfl
  outputs := rfl

def monoHost (output : AudioBuffer) : ClapProcess := ⟨0, 1, none, [], some [output], [], []⟩

theorem monoHost_configured {output : AudioBuffer} (hcount : output.channel_count = 1)
    (hformat : output.data32.isSome ≠ output.data64.isSome) :
    (monoHost output).Configured monoSetup where
  inputs := ⟨Nat.le_refl 0, fun _ hp => (List.not_mem_nil hp).elim,
    fun _ hh => (List.not_mem_nil hh).elim⟩
  outputs := by
    refine ⟨Nat.le_refl 1, ?_, ?_⟩
    · intro p hp
      obtain rfl := List.mem_singleton.mp hp
      simp [hcount]
    · intro h hh _
      obtain rfl := List.mem_singleton.mp hh
      exact hformat

/-- From 32-bit buffers to 64-bit buffers, with one event in each cycle. -/
theorem cycles_separate_switch :
    CyclesSeparate .default monoSetup .fresh .fresh
      [noteCycle (monoHost ⟨some [1], none, 1, 0, 0⟩) 1,
        noteCycle (monoHost ⟨none, some [2], 1, 0, 0⟩) 1] := by
  apply cycles_separate
  have hmono : ∀ output : AudioBuffer, output.channel_count = 1 →
      output.data32.isSome ≠ output.data64.isSome →
      (noteCycle (monoHost output) 1).Bounded monoSetup := fun output hcount hformat =>
    ⟨monoHost_configured hcount hformat, Nat.zero_le _, fun _ => Nat.le_of_ble_eq_true rfl, rfl⟩
  rw [List.forall_mem_cons, List.forall_mem_singleton]
  exact ⟨hmono _ rfl (by decide), hmono _ rfl (by decide)⟩

/-- Neither a list of 65537 events nor a null pointer for no output ports gets through. -/
theorem long_list_and_null_outputs_end_the_run :
    ¬ CyclesSeparate .default monoSetup .fresh .fresh
        [noteCycle (monoHost ⟨some [1], none, 1, 0, 0⟩) 65537] ∧
      ¬ CyclesSeparate .default monoSetup .fresh .fresh
        [noteCycle ⟨0, 1, none, [], none, [], []⟩ 0] := by
  constructor
  · rintro ⟨r, hr, _⟩
    have hc : (monoHost ⟨some [1], none, 1, 0, 0⟩).Configured monoSetup :=
      monoHost_configured rfl (by decide)
    have hlen := (separate_of_process hc hr).2
    have hpushed : ∀ data, ((noteCycle (monoHost ⟨some [1], none, 1, 0, 0⟩) 65537).plugin
        data).filterMap Event.parse = List.replicate 65537 ⟨.note noteEvent.asNote⟩ :=
      fun _ => List.filterMap_replicate_of_some rfl
    rw [hpushed, List.length_replicate] at hlen
    omega
  · rintro ⟨r, hr, _⟩
    exact absurd (output_ports_of_process hr) (by decide)

end Clap
