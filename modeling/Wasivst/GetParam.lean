import Wasivst.Client
import Wasivst.HostStream
import Wasivst.Lib.Correlation
import Wasivst.Vst2Host

/-!
# `getParam` over the serial line

The page calls `WasiVST`, the host takes one request at a time and answers GET_PARAM, and bytes
arrive one by one, in any order of steps. What else the host writes, and when, is free. The
promises behave like the continuations of `Correlation` with the ids as keys, which come back
from the wire through `ToUint32`.
-/

set_option autoImplicit false

namespace Wasivst
open Framing Js Transition

def HostStream.Segment.answer : HostStream.Segment → Option (UInt32 × UInt64)
  | .frame (.getParamResp id value) _ => some (id, value)
  | _ => none

def HostStream.Segment.ofAnswer (id : UInt32) (value : UInt64) : HostStream.Segment :=
  .frame (.getParamResp id value) (by simp [HostWrite.size])

def Dispatched.answer : Dispatched → Option UInt64
  | .getParamResp _ value => some value
  | _ => none

namespace GetParam
open HostStream SerialChannel

/-- `toHost` and `toWorklet` are the bytes under way. `answers` lists the values the host has
answered with, `dispatched` those of the answers that have been dispatched. -/
structure Net where
  client : Client
  toHost : List UInt8
  toWorklet : List UInt8
  answers : List UInt64
  dispatched : List UInt64

inductive Action where
  | call (m : Message)
  /-- The host takes the next request; `value` is used if it is a GET_PARAM. -/
  | serve (value : UInt64)
  /-- The host writes anything but an answer. -/
  | write (s : Segment)
  /-- One byte reaches the listener. -/
  | deliver

def init : Net := ⟨Client.init, [], [], [], []⟩

def serve (s : Net) (value : UInt64) : Option Net :=
  match Vst2Host.readRequest.run s.toHost with
  | .ok (.getParam id, rest) =>
    some { s with
      toHost := rest
      toWorklet := s.toWorklet ++ writeGetParamResp id value
      answers := s.answers ++ [value] }
  | .ok (_, rest) => some { s with toHost := rest }
  | .error _ => none

def step (s : Net) : Action → Option Net
  | .call m =>
    some { s with
      client := (s.client.send m).1
      toHost := s.toHost ++ (s.client.send m).2 }
  | .serve value => serve s value
  | .write w =>
    if w.answer.isNone then some { s with toWorklet := s.toWorklet ++ w.bytes } else none
  | .deliver =>
    match s.toWorklet with
    | [] => none
    | b :: rest =>
      some { s with
        client := s.client.onByte b
        toWorklet := rest
        dispatched := s.dispatched ++
          (WasiVST.receive s.client.rxBuf b).frames.filterMap Dispatched.answer }

/-- An iteration of `Vst2Host::run` that takes a GET_PARAM is such a step. -/
theorem serve_of_body {σ : Type} (P : Plugin σ) {h h' : HostState σ} {id : UInt32}
    {rest : List UInt8} (hread : Vst2Host.readRequest.run h.stdin = .ok (.getParam id, rest))
    (hbody : Vst2Host.body P h = .ok h') (s : Net) (hs : s.toHost = h.stdin) :
    ∃ value, step s (.serve value) = some { s with
      toHost := h'.stdin
      toWorklet := s.toWorklet ++ h'.stdout.drop h.stdout.length
      answers := s.answers ++ [value] } := by
  simp only [Vst2Host.body, hread, Vst2Host.serve, Vst2Host.handleGetParam] at hbody
  cases hbody
  refine ⟨Ieee754.widen (P.getParameter h.plugin id.toInt32).2, ?_⟩
  simp only [step, serve, hs, hread, List.drop_left]

def Net.given (s : Net) (i : Nat) : List UInt64 :=
  s.client.resolved.filterMap fun r => if r.1 = i then some r.2 else none

/-- Each promise has been resolved once, with the value of its own answer, if this answer has been
dispatched, and not at all otherwise. -/
def Net.Answered (s : Net) : Prop :=
  ∀ i, s.given i = ((s.answers.take s.dispatched.length)[i]?).toList

/-- The id of a `getParam` call is an integer that 32 bits hold, and no earlier call with it is
waiting for its answer. -/
def Distinct (s : Net) : Action → Prop
  | .call (.getParam id) =>
    (∃ w, id = JsValue.ofUint32 w) ∧ id ∉ s.client.calls.drop s.dispatched.length
  | _ => True

/-! ## The line -/

def asked : Message → Option JsValue
  | .getParam id => some id
  | _ => none

/-- The ids under way, as answers and as requests, are those of the open calls, in order. -/
structure Wire (s : Net) (segs : List Segment) (ms : List Message) : Prop where
  requests : s.toHost = WorkletFrame.stream (ms.map Message.frame)
  frames : Pending Segment.bytes s.client.rxBuf s.toWorklet segs
  ids : (segs.filterMap Segment.answer).map Prod.fst ++ (ms.filterMap asked).map JsValue.toUint32 =
    (s.client.calls.drop s.dispatched.length).map JsValue.toUint32
  values : s.answers = s.dispatched ++ (segs.filterMap Segment.answer).map Prod.snd
  dispatched_le : s.dispatched.length ≤ s.client.calls.length

def Wired (s : Net) : Prop := ∃ segs ms, Wire s segs ms

theorem wire_init : Wire init [] [] := ⟨rfl, ⟨rfl, rfl⟩, rfl, rfl, Nat.le_refl _⟩

variable {s t : Net} {segs : List Segment} {ms : List Message}

theorem stream_snoc (ms : List Message) (m : Message) :
    WorkletFrame.stream ((ms ++ [m]).map Message.frame) =
      WorkletFrame.stream (ms.map Message.frame) ++ m.encode := by
  simp [WorkletFrame.stream, Message.encode_eq]

theorem wire_call (h : Wire s segs ms) {m : Message} (ht : step s (.call m) = some t) :
    Wire t segs (ms ++ [m]) := by
  cases ht
  refine ⟨?_, ?_, ?_, h.values, ?_⟩
  · simp only [h.requests, Client.send_bytes, stream_snoc]
  · simpa using h.frames
  · have hids := h.ids
    cases m with
    | getParam id =>
      simp only [Client.send, Client.getParam, List.drop_append_of_le_length h.dispatched_le,
        List.map_append, ← hids, List.filterMap_append, List.append_assoc]
      rfl
    | setParam id value => simpa [List.filterMap_cons, asked, Client.send, Client.setParam] using hids
    | process b => simpa [List.filterMap_cons, asked, Client.send, Client.onProcess] using hids
  · have hle := h.dispatched_le
    cases m with
    | getParam id =>
      simp only [Client.send, Client.getParam, List.length_append]
      omega
    | setParam id value => exact hle
    | process b => exact hle

theorem wire_serve (h : Wire s segs ms) {v : UInt64} (ht : step s (.serve v) = some t) :
    ∃ segs' ms', Wire t segs' ms' := by
  simp only [step, serve, h.requests] at ht
  cases ms with
  | nil => cases ht
  | cons m ms =>
    have hread : Vst2Host.readRequest.run (WorkletFrame.stream ((m :: ms).map Message.frame)) =
        .ok (Vst2Host.request m.frame, WorkletFrame.stream (ms.map Message.frame)) :=
      Vst2Host.consumes_frame m.frame _
    rw [hread] at ht
    have hids := h.ids
    cases m with
    | getParam id =>
      cases ht
      have hframes := h.frames.send (Segment.ofAnswer id.toUint32 v).chunk.nonempty
      refine ⟨segs ++ [Segment.ofAnswer id.toUint32 v], ms, rfl, hframes, ?_, ?_, h.dispatched_le⟩
      · rw [← hids]
        simp [asked, Segment.answer, Segment.ofAnswer]
      · rw [h.values]
        simp [Segment.answer, Segment.ofAnswer]
    | setParam id value =>
      cases ht
      exact ⟨segs, ms, rfl, h.frames, hids, h.values, h.dispatched_le⟩
    | process b =>
      cases ht
      exact ⟨segs, ms, rfl, h.frames, hids, h.values, h.dispatched_le⟩

theorem wire_write (h : Wire s segs ms) {w : Segment} (ht : step s (.write w) = some t) :
    Wire t (segs ++ [w]) ms := by
  simp only [step] at ht
  split_ifs at ht with hw
  cases ht
  have hnone := Option.isNone_iff_eq_none.mp hw
  refine ⟨h.requests, h.frames.send w.chunk.nonempty, ?_, ?_, h.dispatched_le⟩
  · rw [← h.ids]
    simp [hnone]
  · rw [h.values]
    simp [hnone]

/-! ## Promises -/

def promises (s : Net) : Correlation.State JsValue UInt64 :=
  ⟨s.client.calls, s.client.paramResolvers, s.dispatched, s.client.resolved⟩

/-- An id on its way to the host and back. -/
def echoed (id : JsValue) : JsValue := JsValue.ofUint32 id.toUint32

theorem echoed_echoed (id : JsValue) : echoed (echoed id) = echoed id := by
  unfold echoed
  rw [JsValue.toUint32_ofUint32]

theorem echoed_eq_iff (id : JsValue) : echoed id = id ↔ ∃ w, id = JsValue.ofUint32 w := by
  constructor
  · intro h
    exact ⟨id.toUint32, h.symm⟩
  · rintro ⟨w, rfl⟩
    unfold echoed
    rw [JsValue.toUint32_ofUint32]

theorem eq_ofAnswer {k : Segment} {id : UInt32} {v : UInt64} (hk : k.answer = some (id, v)) :
    k = .ofAnswer id v := by
  cases k with
  | noise b h => cases hk
  | frame w h =>
    cases w with
    | getParamResp id' v' =>
      cases hk
      rfl
    | processResp p => cases hk
    | log level subsystem message => cases hk

theorem dispatch_other {k : Segment} (hk : k.answer = none) (c : Client) :
    let c' := k.received.toList.foldl Client.dispatch c
    c'.calls = c.calls ∧ c'.paramResolvers = c.paramResolvers ∧ c'.resolved = c.resolved ∧
      k.received.toList.filterMap Dispatched.answer = [] := by
  cases k with
  | noise b h => exact ⟨rfl, rfl, rfl, rfl⟩
  | frame w h =>
    cases w with
    | getParamResp id v => cases hk
    | processResp p => exact ⟨rfl, rfl, rfl, rfl⟩
    | log level subsystem message => exact ⟨rfl, rfl, rfl, rfl⟩

/-- A byte inside a segment changes nothing but the buffer; the last one of an answer settles a
promise. -/
theorem deliver_cases (h : Wire s segs ms) (ht : step s .deliver = some t) :
    (Wire t segs ms ∧ promises t = promises s) ∨
    ∃ k segs', segs = k :: segs' ∧ Wire t segs' ms ∧ match k.answer with
      | none => promises t = promises s
      | some (id, v) => promises t =
          { (promises s).settle (JsValue.ofUint32 id) v with replies := s.dispatched ++ [v] } := by
  obtain ⟨hreq, hframes, hids, hvalues, hle⟩ := h
  simp only [step] at ht
  cases hline : s.toWorklet with
  | nil => rw [hline] at ht; cases ht
  | cons b rest =>
    rw [hline] at ht hframes
    cases ht
    rcases hframes.feed Segment.received (fun k => k.chunk) (fun k => k.bytes_lt) with
      ⟨hnone, hpend⟩ | ⟨k, segs', rfl, hfeed, rfl⟩
    · have hclient : s.client.onByte b =
          { s.client with rxBuf := (WasiVST.receive s.client.rxBuf b).rest } := by
        rw [Client.onByte, WasiVST.receive, hnone]
        rfl
      have hd : (WasiVST.receive s.client.rxBuf b).frames = [] := hnone
      refine .inl ⟨⟨hreq, ?_, ?_, ?_, ?_⟩, ?_⟩
      · rw [hclient]
        exact hpend
      · simpa only [hclient, hd, List.filterMap_nil, List.append_nil] using hids
      · simpa only [hd, List.filterMap_nil, List.append_nil] using hvalues
      · simpa only [hclient, hd, List.filterMap_nil, List.append_nil] using hle
      · simp only [promises, hclient, hd, List.filterMap_nil, List.append_nil]
    · have hd : WasiVST.receive s.client.rxBuf b = ⟨k.received.toList, [], false⟩ := hfeed
      have hclient : s.client.onByte b =
          k.received.toList.foldl Client.dispatch { s.client with rxBuf := [] } := by
        unfold Client.onByte
        rw [hd]
      have hpend : Pending Segment.bytes (s.client.onByte b).rxBuf (segs'.flatMap Segment.bytes)
          segs' := by
        rw [Client.onByte_rxBuf, hd]
        exact pending_start fun x _ => x.chunk.nonempty
      refine .inr ⟨k, segs', rfl, ?_⟩
      cases hk : k.answer with
      | none =>
        obtain ⟨hcalls, htable, hresolved, hvalue⟩ :=
          dispatch_other hk { s.client with rxBuf := [] }
        rw [← hclient] at hcalls htable hresolved
        simp only [List.filterMap_cons, hk] at hids hvalues
        refine ⟨⟨hreq, hpend, ?_, ?_, ?_⟩, ?_⟩
        · simpa only [hcalls, hd, hvalue, List.append_nil] using hids
        · simpa only [hd, hvalue, List.append_nil] using hvalues
        · simpa only [hcalls, hd, hvalue, List.append_nil] using hle
        · simp only [promises, hcalls, htable, hresolved, hd, hvalue, List.append_nil]
      | some r =>
        obtain ⟨id, v⟩ := r
        obtain rfl := eq_ofAnswer hk
        have hsettle : s.client.onByte b =
            Client.resolve { s.client with rxBuf := [] } (JsValue.ofUint32 id) v := hclient
        simp only [List.filterMap_cons, hk, List.map_cons] at hids hvalues
        have hvalue : (WasiVST.receive s.client.rxBuf b).frames.filterMap Dispatched.answer = [v] := by
          rw [hd]
          rfl
        have hlt : s.dispatched.length < s.client.calls.length := by
          have hlen := congrArg List.length hids
          simp only [List.length_append, List.length_cons, List.length_map, List.length_drop] at hlen
          omega
        refine ⟨⟨hreq, hpend, ?_, ?_, ?_⟩, ?_⟩
        · have htail := congrArg List.tail hids
          rw [← List.map_tail, List.tail_drop] at htail
          simp only [hsettle, Client.resolve, hvalue, List.length_append]
          exact htail
        · simp only [hvalue, List.append_assoc]
          exact hvalues
        · simp only [hsettle, Client.resolve, hvalue, List.length_append]
          exact hlt
        · simp only [promises, hsettle, Client.resolve, hvalue, Correlation.State.settle]

theorem wired_step (s : Net) (a : Action) (t : Net) (h : Wired s) (ht : step s a = some t) :
    Wired t := by
  obtain ⟨segs, ms, hw⟩ := h
  cases a with
  | call m => exact ⟨segs, ms ++ [m], wire_call hw ht⟩
  | serve v => exact wire_serve hw ht
  | write w => exact ⟨segs ++ [w], ms, wire_write hw ht⟩
  | deliver =>
    rcases deliver_cases hw ht with ⟨ht', _⟩ | ⟨k, segs', _, ht', _⟩
    · exact ⟨segs, ms, ht'⟩
    · exact ⟨segs', ms, ht'⟩

/-- `promises` is a simulation: calls and dispatched answers are steps, all else is silent. -/
theorem promises_matches :
    Matches step (Correlation.step echoed) Distinct (Correlation.Fresh echoed) promises Wired := by
  intro s a t hw ht
  obtain ⟨segs, ms, hw⟩ := hw
  cases a with
  | call m =>
    cases ht
    cases m with
    | getParam id =>
      refine .inl ⟨.call id, rfl, ?_⟩
      simp only [Distinct, Correlation.Fresh, echoed_eq_iff, promises]
    | setParam id value => exact .inr ⟨rfl, trivial⟩
    | process b => exact .inr ⟨rfl, trivial⟩
  | serve v =>
    refine .inr ⟨?_, trivial⟩
    simp only [step, serve] at ht
    split at ht <;> cases ht <;> rfl
  | write w =>
    refine .inr ⟨?_, trivial⟩
    simp only [step] at ht
    split_ifs at ht
    cases ht
    rfl
  | deliver =>
    rcases deliver_cases hw ht with ⟨_, hstay⟩ | ⟨k, segs', rfl, _, hmove⟩
    · exact .inr ⟨hstay, trivial⟩
    · cases hk : k.answer with
      | none =>
        rw [hk] at hmove
        exact .inr ⟨hmove, trivial⟩
      | some r =>
        obtain ⟨id, v⟩ := r
        rw [hk] at hmove
        have hids := congrArg List.head? hw.ids
        simp only [List.filterMap_cons, hk, List.map_cons, List.cons_append, List.head?_cons,
          List.head?_map, List.head?_drop] at hids
        obtain ⟨key, hkey, hid⟩ := Option.map_eq_some_iff.mp hids.symm
        refine .inl ⟨.reply v, ?_, Iff.rfl⟩
        have hget : (promises s).calls[(promises s).replies.length]? = some key := hkey
        have hecho : echoed key = JsValue.ofUint32 id := congrArg JsValue.ofUint32 hid
        simp only [Correlation.step, hget, hecho, hmove]
        rfl

theorem wired_run {as : List Action} (h : run step init as = some t) : Wired t :=
  run_always wired_step ⟨[], [], wire_init⟩ h

theorem answered_iff (h : Wired t) : t.Answered ↔ (promises t).Settled := by
  obtain ⟨segs, ms, hw⟩ := h
  have htake : t.answers.take t.dispatched.length = t.dispatched := by
    rw [hw.values, List.take_left]
  simp only [Net.Answered, htake]
  rfl

/-- Distinct open ids are enough; and when every call has got its answer, nothing less was. -/
theorem answered_iff_distinct {as : List Action} (h : run step init as = some t) :
    (Meets step Distinct init as → t.Answered) ∧
      (t.dispatched.length = t.client.calls.length → t.Answered → Meets step Distinct init as) := by
  have hwired := wired_run h
  obtain ⟨bs, hrun, hmeets⟩ := promises_matches.run wired_step ⟨[], [], wire_init⟩ h
  constructor
  · intro hd
    apply (answered_iff hwired).mpr
    exact Correlation.settled_of_fresh (hmeets.mp hd) hrun
  · intro hall ha
    have hsettled := (answered_iff hwired).mp ha
    apply hmeets.mpr
    exact Correlation.fresh_of_settled echoed_echoed hrun hall hsettled

def once : List Action :=
  .call (.getParam (.ofUint32 7)) :: .serve 5 :: List.replicate 13 .deliver

theorem answered_once : ∃ t, run step init once = some t ∧ t.Answered := by
  obtain ⟨t, ht⟩ : ∃ t, run step init once = some t :=
    Option.isSome_iff_exists.mp (by decide +kernel)
  refine ⟨t, ht, ?_⟩
  apply (answered_iff_distinct ht).1
  refine ⟨⟨⟨7, rfl⟩, List.not_mem_nil⟩, ?_⟩
  intro s _
  apply meets_of_forall
  intro a ha u
  rcases List.mem_cons.mp ha with rfl | ha
  · trivial
  · rw [List.eq_of_mem_replicate ha]
    trivial

/-- Two calls with one id before the first answer. -/
def twice : List Action :=
  .call (.getParam (.ofUint32 7)) :: .call (.getParam (.ofUint32 7)) :: .serve 1 :: .serve 2 ::
    List.replicate 26 .deliver

theorem twice_given :
    (run step init twice).map (fun t => (t.given 0, t.given 1, t.dispatched)) =
      some ([], [1], [1, 2]) := by
  decide +kernel

theorem twice_not_answered : ¬ ∀ as t, run step init as = some t → t.Answered := by
  intro hall
  obtain ⟨t, ht, heq⟩ := Option.map_eq_some_iff.mp twice_given
  obtain ⟨segs, ms, hw⟩ := wired_run ht
  have hfirst := hall twice t ht 0
  rw [hw.values, List.take_left] at hfirst
  simp only [Prod.mk.injEq] at heq
  rw [heq.1, heq.2.2] at hfirst
  cases hfirst

end GetParam
end Wasivst
