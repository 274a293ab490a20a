import Wasivst.Instance.Steps

/-!
# Blocks are answered in the order in which they were posted

An instance refines a sequential machine behind two queues: the plugin is asked what the page
wrote after LOAD, in that order, with nothing between, and the listener dispatches what it
answers, in order. The host's start is silent there, its first LOG frame the greeting.
-/

set_option autoImplicit false

namespace Wasivst
open Framing Js Transition

namespace Instance
open HostStream SerialChannel Vst2Host

variable {σ : Type} (P : Plugin σ)

/-- What the host writes when it is asked `f`. -/
def writes (p : σ) : WorkletFrame → List HostWrite
  | .process b => [.processResp (Sequential.answer P p b)]
  | .setParam _ _ => []
  | .getParam id => [.getParamResp id (Ieee754.widen (P.getParameter p id.toInt32).2)]

def ask (p : σ) (m : Message) : σ × List HostWrite :=
  ((Sequential.step P p m.frame).1, writes P p m.frame)

/-- The plugin's answers when it is asked `ms` with nothing between. -/
def answers (p : σ) (ms : List Message) : List HostWrite := Remote.outputs (ask P) p ms

theorem writes_bytes (p : σ) (f : WorkletFrame) :
    (writes P p f).flatMap HostWrite.bytes = (Sequential.step P p f).2 := by
  cases f with
  | process b =>
    have h := writeProcessResp_planes (Sequential.answer P p b)
    simpa [writes, HostWrite.bytes, Sequential.step] using h
  | setParam id value => rfl
  | getParam id => exact List.flatMap_singleton _ _

/-- The answer fits into the receive buffer. -/
def Answerable : Message → Prop
  | .process b => 9 + b.channels.length * b.sampleCount * 4 < 2 ^ 32
  | _ => True

theorem size_lt_of_answerable (p : σ) {m : Message} (hm : Answerable m) :
    ∀ w ∈ writes P p m.frame, w.size < 2 ^ 32 := by
  intro w hw
  cases m with
  | process b =>
    obtain rfl := List.mem_singleton.mp hw
    have hsize : (HostWrite.processResp (Sequential.answer P p b.planar)).size =
        9 + b.channels.length * b.sampleCount * 4 := by
      rw [HostWrite.size, Sequential.answer_length, b.planar_length]
      exact congrArg (fun n => 9 + b.channels.length * n * 4) b.planar_sampleCount
    rw [hsize]
    exact hm
  | setParam id value => cases hw
  | getParam id =>
    obtain rfl := List.mem_singleton.mp hw
    exact (by decide : 13 < 2 ^ 32)

abbrev Fitting := { w : HostWrite // w.size < 2 ^ 32 }

def Fitting.bytes (w : Fitting) : List UInt8 := w.val.bytes

theorem Fitting.chunk (w : Fitting) : Chunk WasiVST.scan w.bytes (some w.val.received) := w.val.chunk

theorem Fitting.bytes_lt (w : Fitting) : w.bytes.length < WasiVST.arrayCap :=
  Nat.lt_of_le_of_lt w.val.bytes_length_le w.property

theorem pending_sendAll {buf line : List UInt8} {ws : List Fitting}
    (h : Pending Fitting.bytes buf line ws) (new : List Fitting) :
    Pending Fitting.bytes buf (line ++ new.flatMap Fitting.bytes) (ws ++ new) := by
  induction new generalizing line ws with
  | nil => simpa using h
  | cons w new ih =>
    have hw := ih (h.send w.chunk.nonempty)
    simpa [List.append_assoc] using hw

theorem exists_fitting {ws : List HostWrite} (h : ∀ w ∈ ws, w.size < 2 ^ 32) :
    ∃ fs : List Fitting, ws = fs.map Subtype.val ∧
      fs.flatMap Fitting.bytes = ws.flatMap HostWrite.bytes := by
  induction ws with
  | nil => exact ⟨[], rfl, rfl⟩
  | cons w ws ih =>
    obtain ⟨fs, rfl, hbytes⟩ := ih fun x hx => h x (List.mem_cons_of_mem w hx)
    refine ⟨⟨w, h w List.mem_cons_self⟩ :: fs, rfl, ?_⟩
    rw [List.flatMap_cons, hbytes, List.flatMap_cons]
    rfl

/-! ## The refinement -/

variable (withVst3 : Bool) (opened : List UInt8 → σ) (path : JsString)

/-- LOAD, while the host has not read it. -/
def boot (s : State σ) : List UInt8 :=
  match s.host with
  | none => WasiVST.encodeLoad path
  | some _ => []

/-- The bytes under way to the page, or those the host will begin with. -/
def coming (s : State σ) : List UInt8 :=
  match s.host with
  | none => openedLog
  | some _ => s.toPage

structure Represents (s : State σ) (r : Remote.State σ Message HostWrite) : Prop where
  posted : ∀ channels, .process channels ∈ s.posted → ∃ q : Quantum, q.channels = channels
  sent : r.sent = s.sent
  answerable : ∀ m ∈ r.requests, Answerable m
  toHost : s.toHost = boot path s ++ Message.encodeAll r.requests
  current : r.current = s.host.getD (opened (textEncode path))
  booting : s.host = none → s.toPage = []
  line : ∃ line : List Fitting, r.replies = line.map Subtype.val ∧
    Pending Fitting.bytes s.page.rxBuf (coming s) line
  dispatched : s.dispatched = r.received.map HostWrite.received

def remoteStart : Remote.State σ Message HostWrite :=
  Remote.init (opened (textEncode path)) [startupLog]

theorem represents_start : Represents opened path (start path) (remoteStart opened path) := by
  refine ⟨?_, rfl, ?_, ?_, rfl, fun _ => rfl, ?_, rfl⟩
  · intro channels h
    cases h
  · intro m h
    cases h
  · simp [start, boot, remoteStart, Remote.init, Message.encodeAll]
  · have hsize : startupLog.size < 2 ^ 32 := by decide
    refine ⟨[⟨startupLog, hsize⟩], rfl, ?_⟩
    have h : Pending Fitting.bytes [] ([⟨startupLog, hsize⟩].flatMap Fitting.bytes) _ :=
      pending_start fun w _ => w.chunk.nonempty
    rwa [List.flatMap_singleton] at h

variable {P withVst3 opened path} {s t : State σ} {r : Remote.State σ Message HostWrite}

/-- A step of the worklet is silent, whatever it posts. -/
theorem Represents.worklet (h : Represents opened path s r) {e : Session.Event}
    (he : ∀ input output, e = .process input output → ∃ q : Quantum, q.channels = input) (n : Nat) :
    Represents opened path { s with worklet := Session.step s.worklet e, received := n } r := by
  refine ⟨?_, h.sent, h.answerable, h.toHost, h.current, h.booting, h.line, h.dispatched⟩
  intro channels hmem
  have haudio : channels ∈
      (Session.step s.worklet e).processor.posted.filterMap ProcessorMessage.audio :=
    List.mem_filterMap.mpr ⟨_, hmem, rfl⟩
  rw [audio_posted_step] at haudio
  rcases List.mem_append.mp haudio with hold | hnew
  · obtain ⟨m, hm, hmaudio⟩ := List.mem_filterMap.mp hold
    cases m with
    | ready => cases hmaudio
    | process c =>
      obtain rfl := Option.some.inj hmaudio
      exact h.posted _ hm
  · cases e with
    | message m => cases hnew
    | process input output =>
      simp only at hnew
      split at hnew
      · obtain rfl := List.mem_singleton.mp hnew
        obtain ⟨q, rfl⟩ := he input output rfl
        exact ⟨q.read, rfl⟩
      · cases hnew

theorem encodeAll_snoc (ms : List Message) (m : Message) :
    Message.encodeAll (ms ++ [m]) = Message.encodeAll ms ++ m.encode := by
  simp [Message.encodeAll]

theorem Represents.send (h : Represents opened path s r) {m : Message} (hm : Answerable m) (n : Nat) :
    ∃ bs v, Transition.run (Remote.step (ask P)) r bs = some v ∧
      Represents opened path { Instance.send s m with handled := n } v := by
  refine ⟨[.send m], _, rfl, h.posted, ?_, ?_, ?_, h.current, h.booting, ?_, h.dispatched⟩
  · exact congrArg (· ++ [m]) h.sent
  · intro x hx
    rcases List.mem_append.mp hx with hx | hx
    · exact h.answerable x hx
    · exact List.mem_singleton.mp hx ▸ hm
  · rw [encodeAll_snoc, ← List.append_assoc]
    have htoHost := h.toHost
    simp only [Instance.send, Client.send_bytes, htoHost]
    rfl
  · obtain ⟨line, hline, hpend⟩ := h.line
    refine ⟨line, hline, ?_⟩
    simp only [Instance.send, Client.send_rxBuf]
    exact hpend

theorem Represents.poll (h : Represents opened path s r) (ht : Instance.poll s = some t) :
    Represents opened path t r := by
  unfold Instance.poll at ht
  split at ht
  · cases ht
    rcases check_cases s.page with hc | hc
    · rw [hc]
      exact ⟨h.posted, h.sent, h.answerable, h.toHost, h.current, h.booting, h.line, h.dispatched⟩
    · rw [hc]
      exact ⟨h.posted, h.sent, h.answerable, h.toHost, h.current, h.booting, h.line, h.dispatched⟩
  · cases ht

theorem Represents.handle (h : Represents opened path s r) {e : Engine}
    (ht : Instance.handle e s = some t) :
    ∃ bs v, Transition.run (Remote.step (ask P)) r bs = some v ∧ Represents opened path t v := by
  unfold Instance.handle at ht
  split at ht
  · cases ht
  · cases ht
    exact ⟨[], r, rfl, h.posted, h.sent, h.answerable, h.toHost, h.current, h.booting, h.line,
      h.dispatched⟩
  · rename_i channels hget
    obtain ⟨q, rfl⟩ := h.posted channels (List.mem_of_getElem? hget)
    cases ht
    rw [q.of_channels]
    exact h.send (m := .process (q.block e)) q.answer_lt (s.handled + 1)

theorem Represents.serve (h : Represents opened path s r)
    (hpath : (textEncode path).length < 2 ^ 32)
    (ht : Instance.serve withVst3 P opened s = some t) :
    ∃ bs v, Transition.run (Remote.step (ask P)) r bs = some v ∧ Represents opened path t v := by
  obtain ⟨line, hline, hpend⟩ := h.line
  have htoHost := h.toHost
  have hcurrent := h.current
  unfold Instance.serve at ht
  cases hhost : s.host with
  | none =>
    simp only [boot, hhost] at htoHost
    simp only [hhost, htoHost, Main.readPluginPath_encoded hpath] at ht
    split_ifs at ht
    cases ht
    refine ⟨[], r, rfl, h.posted, h.sent, h.answerable, rfl, ?_, ?_, ⟨line, hline, ?_⟩, h.dispatched⟩
    · rw [hcurrent, hhost]
      rfl
    · intro hnone
      cases hnone
    · simp only [coming, hhost] at hpend
      simpa only [coming, h.booting hhost, List.nil_append] using hpend
  | some p =>
    simp only [boot, hhost, List.nil_append] at htoHost
    rw [hhost, Option.getD_some] at hcurrent
    cases hr : r.requests with
    | nil =>
      rw [hr] at htoHost
      have hbody : Vst2Host.body P ⟨s.toHost, [], p⟩ = .error .eof := by
        rw [htoHost]
        rfl
      simp only [hhost, hbody] at ht
      cases ht
    | cons m ms =>
      rw [hr] at htoHost
      have hcons : s.toHost = m.frame.bytes ++ Message.encodeAll ms := by
        rw [htoHost, ← m.encode_eq]
        exact List.flatMap_cons
      have hbody := body_frame P m.frame (Message.encodeAll ms) [] p
      rw [← hcons, List.nil_append] at hbody
      simp only [hhost, hbody] at ht
      cases ht
      have hm : Answerable m := h.answerable m (hr ▸ List.mem_cons_self)
      obtain ⟨fs, hfs, hbytes⟩ := exists_fitting (size_lt_of_answerable P p hm)
      have hserve : Remote.step (ask P) r .serve = some { r with
          requests := ms
          current := (ask P r.current m).1
          replies := r.replies ++ (ask P r.current m).2 } := by
        simp only [Remote.step, hr]
      refine ⟨[.serve], _, run_cons_eq_some.mpr ⟨_, hserve, rfl⟩, h.posted, h.sent, ?_, rfl, ?_, ?_,
        ⟨line ++ fs, ?_, ?_⟩, h.dispatched⟩
      · intro x hx
        exact h.answerable x (hr ▸ List.mem_cons_of_mem m hx)
      · rw [hcurrent]
        rfl
      · intro hnone
        cases hnone
      · rw [hcurrent, hline, List.map_append, ← hfs]
        rfl
      · simp only [coming, hhost] at hpend
        have hnew := pending_sendAll hpend fs
        rwa [hbytes, writes_bytes] at hnew

theorem Represents.running (h : Represents opened path s r) (hbytes : s.toPage ≠ []) :
    ∃ p, s.host = some p := by
  cases hhost : s.host with
  | none => exact absurd (h.booting hhost) hbytes
  | some p => exact ⟨p, rfl⟩

/-- The next byte ends inside a frame, or completes the oldest one under way. -/
theorem Represents.next_byte (h : Represents opened path s r) {b : UInt8} {rest : List UInt8}
    (hbytes : s.toPage = b :: rest) :
    ∃ line : List Fitting, r.replies = line.map Subtype.val ∧
      (((WasiVST.receive s.page.rxBuf b).frames = [] ∧
          Pending Fitting.bytes (WasiVST.receive s.page.rxBuf b).rest rest line) ∨
        ∃ w line', line = w :: line' ∧ rest = line'.flatMap Fitting.bytes ∧
          WasiVST.receive s.page.rxBuf b = ⟨[w.val.received], [], false⟩) := by
  obtain ⟨line, hline, hpend⟩ := h.line
  obtain ⟨p, hhost⟩ := h.running (hbytes ▸ List.cons_ne_nil b rest)
  simp only [coming, hhost, hbytes] at hpend
  refine ⟨line, hline, ?_⟩
  rcases hpend.feed (fun w => some w.val.received) Fitting.chunk Fitting.bytes_lt with
    hinside | ⟨w, line', hw, hfeed, hrest⟩
  · exact .inl hinside
  · exact .inr ⟨w, line', hw, hrest, hfeed⟩

theorem Represents.deliver (h : Represents opened path s r) (ht : Instance.deliver s = some t) :
    ∃ bs v, Transition.run (Remote.step (ask P)) r bs = some v ∧ Represents opened path t v := by
  unfold Instance.deliver at ht
  cases hbytes : s.toPage with
  | nil => simp [hbytes] at ht
  | cons b rest =>
    simp only [hbytes] at ht
    cases ht
    obtain ⟨p, hhost⟩ := h.running (hbytes ▸ List.cons_ne_nil b rest)
    have hup : s.host = none → rest = [] := by
      intro hnone
      rw [hhost] at hnone
      cases hnone
    obtain ⟨line, hline, ⟨hframes, hpend⟩ | ⟨w, line', rfl, rfl, hd⟩⟩ := h.next_byte hbytes
    · refine ⟨[], r, rfl, h.posted, h.sent, h.answerable, h.toHost, h.current, hup,
        ⟨line, hline, ?_⟩, ?_⟩
      · simp only [coming, hhost, Client.onByte_rxBuf]
        exact hpend
      · rw [hframes, List.append_nil]
        exact h.dispatched
    · have hreceive : Remote.step (ask P) r .receive = some { r with
          replies := line'.map Subtype.val
          received := r.received ++ [w.val] } := by
        simp only [Remote.step, hline, List.map_cons]
      refine ⟨[.receive], _, run_cons_eq_some.mpr ⟨_, hreceive, rfl⟩, h.posted, h.sent,
        h.answerable, h.toHost, h.current, hup, ⟨line', rfl, ?_⟩, ?_⟩
      · simp only [coming, hhost, Client.onByte_rxBuf, hd]
        exact pending_start fun x _ => x.chunk.nonempty
      · simp only [hd, h.dispatched, List.map_append, List.map_singleton]

theorem represents_step (hpath : (textEncode path).length < 2 ^ 32) :
    Simulates (step withVst3 P opened) (Remote.step (ask P)) (Represents opened path) := by
  intro s a t r h ht
  cases a with
  | render input output =>
    cases ht
    refine ⟨[], r, rfl, h.worklet ?_ s.received⟩
    intro channels out he
    cases he
    exact ⟨input, rfl⟩
  | setParam id value =>
    simp only [step, command] at ht
    split_ifs at ht
    cases ht
    exact h.send (m := .setParam id value) trivial s.handled
  | getParam id =>
    simp only [step, command] at ht
    split_ifs at ht
    cases ht
    exact h.send (m := .getParam id) trivial s.handled
  | poll => exact ⟨[], r, rfl, h.poll ht⟩
  | handle e => exact h.handle ht
  | serve => exact h.serve hpath ht
  | deliver => exact h.deliver ht
  | receive =>
    simp only [step, receive] at ht
    split at ht
    · cases ht
    · cases ht
      refine ⟨[], r, rfl, h.worklet ?_ (s.received + 1)⟩
      intro channels out he
      cases he

/-! ## Bookkeeping -/

/-- What crosses a port is what was posted on it, as far as the other side has taken it. -/
structure Counted (s : State σ) : Prop where
  session : Session.Inv s.worklet
  received_le : s.received ≤ s.page.port.length
  handled_le : s.handled ≤ s.posted.length
  deliveries : s.worklet.deliveries = (s.page.port.take s.received).filterMap PortMessage.audio
  port : s.page.port.filterMap PortMessage.audio = s.dispatched.filterMap Dispatched.audio
  sent : s.sent.filterMap Message.audio =
    (s.posted.take s.handled).filterMap ProcessorMessage.audio
  calls : s.page.calls = s.sent.filterMap GetParam.asked

theorem counted_start (path : JsString) : Counted (start path : State σ) :=
  ⟨Session.inv_init, Nat.le_refl _, Nat.le_refl _, rfl, rfl, rfl, rfl⟩

theorem take_of_initial {α : Type} {l l' : List α} (h : l <+: l') {n : Nat} (hn : n ≤ l.length) :
    l'.take n = l.take n := by
  obtain ⟨r, rfl⟩ := h
  exact List.take_append_of_le_length hn

theorem filterMap_take_succ {α β : Type} (f : α → Option β) {l : List α} {n : Nat} {x : α}
    (h : l[n]? = some x) :
    (l.take (n + 1)).filterMap f = (l.take n).filterMap f ++ (f x).toList := by
  rw [List.take_add_one, h, List.filterMap_append]
  cases hf : f x <;> simp [hf]

theorem Counted.render (h : Counted s) (input output : Audio) :
    Counted { s with worklet := Session.step s.worklet (.process input output) } := by
  have hgrow := posted_step s.worklet (.process input output)
  refine ⟨Session.inv_step h.session (.process input output), h.received_le, ?_, ?_, h.port, ?_,
    h.calls⟩
  · exact h.handled_le.trans hgrow.length_le
  · rw [deliveries_step, List.append_nil]
    exact h.deliveries
  · rw [h.sent]
    exact congrArg _ (take_of_initial hgrow h.handled_le).symm

theorem Counted.receive (h : Counted s) (ht : Instance.receive s = some t) : Counted t := by
  unfold Instance.receive at ht
  split at ht
  · cases ht
  · rename_i m hm
    cases ht
    have hgrow := posted_step s.worklet (.message m)
    refine ⟨Session.inv_step h.session (.message m), ?_, ?_, ?_, h.port, ?_, h.calls⟩
    · exact (List.getElem?_eq_some_iff.mp hm).1
    · exact h.handled_le.trans hgrow.length_le
    · simp only [deliveries_step, filterMap_take_succ _ hm, h.deliveries]
    · rw [h.sent]
      exact congrArg _ (take_of_initial hgrow h.handled_le).symm

/-- Messages posted later are behind those that were received. -/
theorem Counted.posts (h : Counted s) {c : Client} {new : List PortMessage} {ds : List Dispatched}
    (hport : c.port = s.page.port ++ new) (hcalls : c.calls = s.page.calls)
    (haudio : new.filterMap PortMessage.audio = ds.filterMap Dispatched.audio) (line : List UInt8)
    (waiting : Bool) :
    Counted { s with page := c, toPage := line, waiting := waiting, dispatched := s.dispatched ++ ds } := by
  have hgrow : s.page.port <+: c.port := ⟨new, hport.symm⟩
  refine ⟨h.session, h.received_le.trans hgrow.length_le, h.handled_le, ?_, ?_, h.sent, ?_⟩
  · rw [h.deliveries]
    exact congrArg _ (take_of_initial hgrow h.received_le).symm
  · simp only [hport, List.filterMap_append, h.port, haudio]
  · exact hcalls.trans h.calls

theorem Counted.poll (h : Counted s) (ht : Instance.poll s = some t) : Counted t := by
  unfold Instance.poll at ht
  split at ht
  · cases ht
    rcases check_cases s.page with hc | hc
    · rw [hc]
      exact ⟨h.session, h.received_le, h.handled_le, h.deliveries, h.port, h.sent, h.calls⟩
    · have hnew := @Counted.posts _ s h { s.page with port := s.page.port ++ [.ready] } [.ready] []
        rfl rfl rfl s.toPage false
      rw [List.append_nil] at hnew
      rw [hc]
      exact hnew
  · cases ht

theorem Counted.deliver (h : Counted s) (ht : Instance.deliver s = some t) : Counted t := by
  unfold Instance.deliver at ht
  split at ht
  · cases ht
  · rename_i b rest _
    cases ht
    exact h.posts (port_onByte s.page b) (calls_onByte s.page b) (audio_processResp _) rest s.waiting

theorem Counted.command (h : Counted s) {m : Message} (hm : m.audio = none)
    (ht : Instance.command s m = some t) : Counted t := by
  unfold Instance.command at ht
  split_ifs at ht
  cases ht
  have hsent : (s.sent ++ [m]).filterMap Message.audio = s.sent.filterMap Message.audio := by
    simp [hm]
  refine ⟨h.session, ?_, h.handled_le, ?_, ?_, hsent.trans h.sent, ?_⟩
  · simpa only [Instance.send, port_send] using h.received_le
  · simpa only [Instance.send, port_send] using h.deliveries
  · simpa only [Instance.send, port_send] using h.port
  · simp only [Instance.send, calls_send, h.calls, List.filterMap_append]
    cases hasked : GetParam.asked m <;> simp [hasked]

theorem Counted.handle (h : Counted s) (hr : Represents opened path s r) {e : Engine}
    (ht : Instance.handle e s = some t) : Counted t := by
  unfold Instance.handle at ht
  split at ht
  · cases ht
  · rename_i hget
    cases ht
    have htake := filterMap_take_succ ProcessorMessage.audio hget
    rw [← h.sent] at htake
    refine ⟨h.session, h.received_le, ?_, h.deliveries, h.port, ?_, h.calls⟩
    · exact (List.getElem?_eq_some_iff.mp hget).1
    · exact (List.append_nil _).symm.trans htake.symm
  · rename_i channels hget
    obtain ⟨q, rfl⟩ := hr.posted channels (List.mem_of_getElem? hget)
    have htake := filterMap_take_succ ProcessorMessage.audio hget
    rw [← h.sent] at htake
    cases ht
    refine ⟨h.session, h.received_le, ?_, h.deliveries, h.port, ?_, ?_⟩
    · exact (List.getElem?_eq_some_iff.mp hget).1
    · refine Eq.trans ?_ htake.symm
      simp only [q.of_channels, List.filterMap_append]
      rfl
    · simp only [q.of_channels, List.filterMap_append, ← h.calls]
      exact (List.append_nil _).symm

theorem Counted.serve (h : Counted s) (ht : Instance.serve withVst3 P opened s = some t) :
    Counted t := by
  obtain ⟨hsession, hreceived, hhandled, hdeliveries, hport, hsent, hcalls⟩ := h
  unfold Instance.serve at ht
  split at ht
  · split at ht
    · cases ht
    · split_ifs at ht
      cases ht
      exact ⟨hsession, hreceived, hhandled, hdeliveries, hport, hsent, hcalls⟩
  · split at ht
    · cases ht
    · cases ht
      exact ⟨hsession, hreceived, hhandled, hdeliveries, hport, hsent, hcalls⟩

variable (P opened path) in
structure Reached (s : State σ) : Prop where
  counted : Counted s
  remote : ∃ r, Represents opened path s r ∧
    Remote.Inv (ask P) (opened (textEncode path)) [startupLog] r

theorem reached_start : Reached P opened path (start path) :=
  ⟨counted_start path, _, represents_start opened path, Remote.inv_init⟩

theorem reached_step (hpath : (textEncode path).length < 2 ^ 32) (s : State σ) (a : Action)
    (t : State σ) (h : Reached P opened path s) (ht : step withVst3 P opened s a = some t) :
    Reached P opened path t := by
  obtain ⟨hc, r, hr, hinv⟩ := h
  obtain ⟨bs, v, hrun, hv⟩ := represents_step hpath s a t r hr ht
  refine ⟨?_, v, hv, run_always Remote.inv_step hinv hrun⟩
  cases a with
  | render input output =>
    cases ht
    exact hc.render _ output
  | setParam id value => exact hc.command rfl ht
  | getParam id => exact hc.command rfl ht
  | poll => exact hc.poll ht
  | handle e => exact hc.handle hr ht
  | serve => exact hc.serve ht
  | deliver => exact hc.deliver ht
  | receive => exact hc.receive ht

theorem reached_run (hpath : (textEncode path).length < 2 ^ 32) {as : List Action}
    (h : run (step withVst3 P opened) (start path) as = some s) : Reached P opened path s :=
  run_always (reached_step hpath) reached_start h

/-! ## What is heard -/

/-- The answers of the sequential plugin to the blocks among `ms`. -/
def answeredAudio (P : Plugin σ) (p : σ) (ms : List Message) : List Audio :=
  (answers P p ms).filterMap HostWrite.audio

theorem audio_received (w : HostWrite) : w.received.audio = w.audio.map readBlock := by
  cases w <;> rfl

theorem filterMap_received {β : Type} {f : Dispatched → Option β} {g : HostWrite → Option β}
    (h : ∀ w : HostWrite, f w.received = g w) (ws : List HostWrite) :
    (ws.map HostWrite.received).filterMap f = ws.filterMap g := by
  rw [List.filterMap_map]
  exact List.filterMap_congr fun w _ => h w

theorem filterMap_audio_received (ws : List HostWrite) :
    (ws.map HostWrite.received).filterMap Dispatched.audio =
      (ws.filterMap HostWrite.audio).map readBlock := by
  rw [filterMap_received audio_received, List.map_filterMap]

/-- Nothing is heard of the greeting. -/
theorem audio_greeting (p : σ) (ms : List Message) :
    ([startupLog] ++ answers P p ms).filterMap HostWrite.audio = answeredAudio P p ms := rfl

theorem Reached.dispatched_prefix (h : Reached P opened path s) :
    s.dispatched <+:
      ([startupLog] ++ answers P (opened (textEncode path)) s.sent).map HostWrite.received := by
  obtain ⟨_, r, hr, hinv⟩ := h
  have hprefix := (Remote.received_prefix hinv).map HostWrite.received
  rw [hr.sent] at hprefix
  rw [hr.dispatched]
  exact hprefix

theorem Reached.deliveries_prefix (h : Reached P opened path s) :
    s.worklet.deliveries <+:
      (answeredAudio P (opened (textEncode path)) s.sent).map readBlock := by
  have hall := h.dispatched_prefix.filterMap Dispatched.audio
  rw [filterMap_audio_received, audio_greeting] at hall
  rw [h.counted.deliveries]
  refine ((List.take_prefix s.received s.page.port).filterMap PortMessage.audio).trans ?_
  rw [h.counted.port]
  exact hall

/-- A call plays the answer to the block of its number, Number for Number, or nothing. -/
def Plays (answered : List Audio) (c : Session.Call) : Prop :=
  match c.delivery with
  | none => c.after = c.before
  | some n => ∃ block, answered[n]? = some block ∧
      (WasivstProcessor.SameShape block c.before → SameBlock c.after block)

theorem sameShape_readBlock (x y : Audio) :
    WasivstProcessor.SameShape (readBlock x) y ↔ WasivstProcessor.SameShape x y := by
  have hlengths : (readBlock x).map List.length = x.map List.length := by
    simp [readBlock, Function.comp_def]
  unfold WasivstProcessor.SameShape
  rw [hlengths]

theorem plays_of_writes {deliveries answered : List Audio} {c : Session.Call}
    (hc : c.Writes deliveries) (h : deliveries <+: answered.map readBlock) : Plays answered c := by
  have hgrown := hc.grow h
  unfold Session.Call.Writes at hgrown
  unfold Plays
  cases hdelivery : c.delivery with
  | none => simpa only [hdelivery] using hgrown
  | some n =>
    simp only [hdelivery, List.getElem?_map] at hgrown
    obtain ⟨b, hb, hafter⟩ := hgrown
    obtain ⟨block, hblock, rfl⟩ := Option.map_eq_some_iff.mp hb
    refine ⟨block, hblock, ?_⟩
    intro hshape
    rw [hafter ((sameShape_readBlock block c.before).mpr hshape)]
    exact sameBlock_readBlock block

/-- However the parties interleave, the `n`-th block that reaches the worklet is the answer of a
plugin that is asked everything in turn to the `n`-th block the worklet posted, and a call writes
such an answer, each at most once and in this order, or leaves the output alone. -/
theorem heard_in_order (hpath : (textEncode path).length < 2 ^ 32) {as : List Action}
    (h : run (step withVst3 P opened) (start path) as = some s) :
    s.worklet.deliveries <+:
        (answeredAudio P (opened (textEncode path)) s.sent).map readBlock ∧
      s.sent.filterMap Message.audio <+: s.posted.filterMap ProcessorMessage.audio ∧
      s.worklet.written.Pairwise (· < ·) ∧
      ∀ c ∈ s.worklet.calls, Plays (answeredAudio P (opened (textEncode path)) s.sent) c := by
  have hs : Reached P opened path s := reached_run hpath h
  refine ⟨hs.deliveries_prefix, ?_, hs.counted.session.increasing, ?_⟩
  · rw [hs.counted.sent]
    exact (List.take_prefix _ _).filterMap ProcessorMessage.audio
  · intro c hc
    exact plays_of_writes (hs.counted.session.outputs c hc) hs.deliveries_prefix

/-- A plugin with one parameter, which it plays. -/
def playing : Plugin UInt32 where
  setParameter _ _ value := value
  getParameter p _ := (p, p)
  processReplacing p _ outs _ := (p, outs.map fun ch => ch.map fun _ => p)
  keeps_shape p ins outs n := by simp

def mono : Quantum := ⟨[[1, 2]], by decide, by decide, by decide⟩

/-- The timer fires when one byte has come; the second call writes the answer to the first. -/
def twoCalls : List Action :=
  [.serve, .deliver, .poll, .receive, .render mono [[0, 0]], .handle .canonical, .handle .canonical,
    .setParam (.ofUint32 7) 0, .serve, .serve] ++ List.replicate 62 .deliver ++
    [.receive, .render mono [[0, 0]]]

theorem twoCalls_heard : ∃ s,
    run (step false playing fun _ => 5) (start [0x61]) twoCalls = some s ∧
      s.worklet.deliveries <+: (answeredAudio playing 5 s.sent).map readBlock ∧
      s.sent.filterMap Message.audio <+: s.posted.filterMap ProcessorMessage.audio ∧
      s.worklet.written.Pairwise (· < ·) ∧
      ∀ c ∈ s.worklet.calls, Plays (answeredAudio playing 5 s.sent) c := by
  obtain ⟨s, hs⟩ : ∃ s, run (step false playing fun _ => 5) (start [0x61]) twoCalls = some s :=
    Option.isSome_iff_exists.mp (by decide +kernel)
  exact ⟨s, hs, heard_in_order (by decide) hs⟩

end Instance
end Wasivst
