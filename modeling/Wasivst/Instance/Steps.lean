import Wasivst.GetParam
import Wasivst.Lib.Remote
import Wasivst.Main
import Wasivst.Processor

/-!
# A `WasiVST` instance

The worklet, the page and the host of a VST2 plugin, joined by two message ports and by the
serial line, from the moment LOAD has been sent. Any of them may be the next to take a step. A
message on a port is named by its place in the list of those posted, so each side only counts
how many it has taken; the line carries bytes, which reach the page one by one.
-/

set_option autoImplicit false

namespace Wasivst
open Framing Js Transition

def ProcessorMessage.audio : ProcessorMessage → Option Audio
  | .ready => none
  | .process channels => some channels

def PortMessage.audio : PortMessage → Option Audio
  | .ready => none
  | .processResp channels => some channels

def Message.audio : Message → Option Audio
  | .process b => some b.channels
  | _ => none

def Dispatched.audio : Dispatched → Option Audio
  | .processResp channels => some channels
  | _ => none

def HostWrite.audio : HostWrite → Option Audio
  | .processResp p => some p.channels
  | _ => none

/-- The block that a message of the worklet is, if its length fields fit. -/
def AudioBlock.of (e : Engine) (channels : Audio) : Option AudioBlock :=
  if h : channels.length < 2 ^ 32 ∧ WasiVST.sampleCount channels < 2 ^ 32 ∧
      channels.length * WasiVST.sampleCount channels * 4 < 2 ^ 32 then
    some ⟨channels, e, h.1, h.2.1, h.2.2⟩
  else none

/-- The input of a call whose answer fits into the receive buffer of the page. -/
structure Quantum where
  channels : Audio
  channels_lt : channels.length < 2 ^ 32
  count_lt : WasiVST.sampleCount channels < 2 ^ 32
  answer_lt : 9 + channels.length * WasiVST.sampleCount channels * 4 < 2 ^ 32

namespace Quantum

def block (q : Quantum) (e : Engine) : AudioBlock where
  channels := q.channels
  engine := e
  channels_lt := q.channels_lt
  count_lt := q.count_lt
  audio_lt := by
    have h := q.answer_lt
    omega

@[simp] theorem of_channels (q : Quantum) (e : Engine) :
    AudioBlock.of e q.channels = some (q.block e) := by
  unfold AudioBlock.of
  rw [dif_pos ⟨q.channels_lt, q.count_lt, (q.block e).audio_lt⟩]
  rfl

theorem sampleCount_readBlock (channels : Audio) :
    WasiVST.sampleCount (readBlock channels) = WasiVST.sampleCount channels := by
  cases channels with
  | nil => rfl
  | cons ch channels => exact List.length_map _

/-- What the worklet posts of it. -/
def read (q : Quantum) : Quantum where
  channels := readBlock q.channels
  channels_lt := by simpa [readBlock] using q.channels_lt
  count_lt := by simpa [sampleCount_readBlock] using q.count_lt
  answer_lt := by
    rw [sampleCount_readBlock, readBlock, List.length_map]
    exact q.answer_lt

end Quantum

namespace Instance

/-- `handled` and `received` count the messages that the page has taken from the worklet and the
worklet from the page. `host` is the plugin, once it is open. `sent` and `dispatched` are
histories: what the page wrote after LOAD and what its listener made of the bytes it got. -/
structure State (σ : Type) where
  worklet : Session.State
  page : Client
  handled : Nat
  received : Nat
  waiting : Bool
  toHost : List UInt8
  host : Option σ
  toPage : List UInt8
  sent : List Message
  dispatched : List Dispatched

inductive Action where
  /-- The audio thread calls `process`. -/
  | render (input : Quantum) (output : Audio)
  | setParam (id : JsValue) (value : UInt64)
  | getParam (id : JsValue)
  /-- The timer of `check` fires. -/
  | poll
  /-- `#onWorkletMessage` runs on the next message of the worklet. -/
  | handle (e : Engine)
  /-- The host takes LOAD or runs the body of its loop once. -/
  | serve
  /-- One byte reaches the listener of the page. -/
  | deliver
  /-- `_onMessage` runs on the next message of the page. -/
  | receive

variable {σ : Type}

def State.posted (s : State σ) : List ProcessorMessage := s.worklet.processor.posted

def start (path : JsString) : State σ :=
  ⟨Session.init, Client.init, 0, 0, true, WasiVST.encodeLoad path, none, [], [], []⟩

def send (s : State σ) (m : Message) : State σ :=
  { s with
    page := (s.page.send m).1
    toHost := s.toHost ++ (s.page.send m).2
    sent := s.sent ++ [m] }

/-- Callers have the object when `load` has returned. -/
def command (s : State σ) (m : Message) : Option (State σ) :=
  if s.waiting then none else some (send s m)

def poll (s : State σ) : Option (State σ) :=
  if s.waiting then some { s with page := s.page.check.1, waiting := !s.page.check.2 } else none

def handle (e : Engine) (s : State σ) : Option (State σ) :=
  match s.posted[s.handled]? with
  | none => none
  | some .ready => some { s with handled := s.handled + 1 }
  | some (.process channels) =>
    some { s with
      page := (s.page.onProcess e channels).1
      handled := s.handled + 1
      toHost := s.toHost ++ (s.page.onProcess e channels).2
      sent := s.sent ++ ((AudioBlock.of e channels).map Message.process).toList }

def deliver (s : State σ) : Option (State σ) :=
  match s.toPage with
  | [] => none
  | b :: rest =>
    some { s with
      page := s.page.onByte b
      toPage := rest
      dispatched := s.dispatched ++ (WasiVST.receive s.page.rxBuf b).frames }

def receive (s : State σ) : Option (State σ) :=
  match s.page.port[s.received]? with
  | none => none
  | some m =>
    some { s with worklet := Session.step s.worklet (.message m), received := s.received + 1 }

variable (withVst3 : Bool) (P : Plugin σ) (opened : List UInt8 → σ)

/-- A host that finds no whole request waits for more bytes. -/
def serve (s : State σ) : Option (State σ) :=
  match s.host with
  | none =>
    match Main.readPluginPath.run s.toHost with
    | .error _ => none
    | .ok (path, rest) =>
      if Main.hostFor withVst3 path = .vst2 then
        some { s with
          toHost := rest
          host := some (opened path)
          toPage := s.toPage ++ Vst2Host.openedLog }
      else none
  | some p =>
    match Vst2Host.body P ⟨s.toHost, [], p⟩ with
    | .error _ => none
    | .ok h =>
      some { s with
        toHost := h.stdin
        host := some h.plugin
        toPage := s.toPage ++ h.stdout }

def step (s : State σ) : Action → Option (State σ)
  | .render input output =>
    some { s with worklet := Session.step s.worklet (.process input.channels output) }
  | .setParam id value => command s (.setParam id value)
  | .getParam id => command s (.getParam id)
  | .poll => poll s
  | .handle e => handle e s
  | .serve => serve withVst3 P opened s
  | .deliver => deliver s
  | .receive => receive s

/-! ## The worklet -/

theorem posted_step (w : Session.State) (e : Session.Event) :
    w.processor.posted <+: (Session.step w e).processor.posted := by
  cases e with
  | message m =>
    cases m with
    | ready => exact List.prefix_append _ _
    | processResp channels => exact List.prefix_refl _
  | process input output =>
    simp only [Session.step, WasivstProcessor.process]
    cases w.processor.ready with
    | false => exact List.prefix_refl _
    | true =>
      cases w.processor.pendingOutput with
      | none => exact List.prefix_append _ _
      | some pending => exact List.prefix_append _ _

/-- A call posts its input if the worklet is ready, a message from the page posts no audio. -/
theorem audio_posted_step (w : Session.State) (e : Session.Event) :
    (Session.step w e).processor.posted.filterMap ProcessorMessage.audio =
      w.processor.posted.filterMap ProcessorMessage.audio ++ match e with
        | .message _ => []
        | .process input _ => if w.processor.ready then [readBlock input] else [] := by
  cases e with
  | message m =>
    cases m with
    | ready => simp [Session.step, WasivstProcessor.onMessage, ProcessorMessage.audio]
    | processResp channels => simp [Session.step, WasivstProcessor.onMessage]
  | process input output =>
    simp only [Session.step, WasivstProcessor.process]
    cases w.processor.ready with
    | false => simp
    | true => cases w.processor.pendingOutput <;> simp [ProcessorMessage.audio]

theorem deliveries_step (w : Session.State) (e : Session.Event) :
    (Session.step w e).deliveries = w.deliveries ++ match e with
      | .message m => m.audio.toList
      | .process _ _ => [] := by
  cases e with
  | message m => cases m <;> simp [Session.step, PortMessage.audio]
  | process input output =>
    simp only [Session.step]
    split <;> simp

/-! ## The page -/

theorem port_send (c : Client) (m : Message) : (c.send m).1.port = c.port := by
  cases m <;> rfl

theorem calls_send (c : Client) (m : Message) :
    (c.send m).1.calls = c.calls ++ (GetParam.asked m).toList := by
  cases m <;> simp [Client.send, Client.setParam, Client.getParam, Client.onProcess, GetParam.asked]

theorem port_foldl (c : Client) (ds : List Dispatched) :
    (ds.foldl Client.dispatch c).port =
      c.port ++ (ds.filterMap Dispatched.audio).map PortMessage.processResp := by
  induction ds generalizing c with
  | nil => simp
  | cons d ds ih =>
    rw [List.foldl_cons, ih]
    cases d <;> simp [List.filterMap_cons, Client.dispatch, Client.resolve, Dispatched.audio]

theorem calls_foldl (c : Client) (ds : List Dispatched) :
    (ds.foldl Client.dispatch c).calls = c.calls := by
  induction ds generalizing c with
  | nil => rfl
  | cons d ds ih =>
    rw [List.foldl_cons, ih]
    cases d <;> rfl

theorem port_onByte (c : Client) (b : UInt8) :
    (c.onByte b).port = c.port ++
      ((WasiVST.receive c.rxBuf b).frames.filterMap Dispatched.audio).map PortMessage.processResp :=
  port_foldl _ _

theorem calls_onByte (c : Client) (b : UInt8) : (c.onByte b).calls = c.calls := calls_foldl _ _

theorem audio_processResp (l : List Audio) :
    (l.map PortMessage.processResp).filterMap PortMessage.audio = l := by
  rw [List.filterMap_map]
  exact List.filterMap_some

theorem check_cases (c : Client) :
    c.check = (c, false) ∨ c.check = ({ c with port := c.port ++ [.ready] }, true) := by
  unfold Client.check
  split
  · exact .inr rfl
  · exact .inl rfl

end Instance
end Wasivst
