import Mathlib.Logic.Function.Basic
import Wasivst.Encoder
import Wasivst.Receiver

/-!
# `WasiVST`: the state of the main thread

What the methods of `WasiVST` and the listener on `serial0-output-byte` read and write: the
receive buffer, the map of resolvers, the log ring and the messages posted to the worklet. A
resolver is named by the number of the `getParam` call that made it.
-/

set_option autoImplicit false

namespace Wasivst
open Js

inductive PortMessage where
  | ready
  | processResp (channels : List (List UInt32))
  deriving DecidableEq

structure LogEntry where
  level : UInt8
  subsystem : List UInt8
  msg : List UInt8
  deriving DecidableEq

/-- `calls` and `resolved` are histories: the ids of the `getParam` calls made so far and the
resolvers called, with their arguments. -/
structure Client where
  rxBuf : List UInt8
  paramResolvers : JsValue → Option Nat
  logs : List LogEntry
  port : List PortMessage
  calls : List JsValue
  resolved : List (Nat × UInt64)

namespace Client

def init : Client := ⟨[], fun _ => none, [], [], [], []⟩

/-- The bytes are what `#serialWrite` is given; `#v86` is set as long as callers have the object. -/
def getParam (c : Client) (id : JsValue) : Client × List UInt8 :=
  ({ c with
    paramResolvers := Function.update c.paramResolvers id (some c.calls.length)
    calls := c.calls ++ [id] }, WasiVST.encodeGetParam id)

def setParam (c : Client) (id : JsValue) (value : UInt64) : Client × List UInt8 :=
  (c, WasiVST.encodeSetParam id value)

/-- A `process` message from the worklet. `new Float32Array` keeps the Numbers. -/
def onProcess (c : Client) (e : Engine) (channels : List (List UInt32)) : Client × List UInt8 :=
  (c, WasiVST.encodeProcess e channels)

def send (c : Client) : Message → Client × List UInt8
  | .getParam id => c.getParam id
  | .setParam id value => c.setParam id value
  | .process b => c.onProcess b.engine b.channels

/-- `get(id)?.(value)`, then `delete(id)`. -/
def resolve (c : Client) (id : JsValue) (value : UInt64) : Client :=
  { c with
    paramResolvers := Function.update c.paramResolvers id none
    resolved := c.resolved ++ ((c.paramResolvers id).map fun i => (i, value)).toList }

def pushLog (logs : List LogEntry) (entry : LogEntry) : List LogEntry :=
  if 1000 < (logs ++ [entry]).length then (logs ++ [entry]).tail else logs ++ [entry]

def dispatch (c : Client) : Dispatched → Client
  | .processResp channels => { c with port := c.port ++ [.processResp channels] }
  | .getParamResp id value => c.resolve (JsValue.ofUint32 id) value
  | .log level subsystem message => { c with logs := pushLog c.logs ⟨level, subsystem, message⟩ }

/-- The listener on `serial0-output-byte`. -/
def onByte (c : Client) (byte : UInt8) : Client :=
  let d := WasiVST.receive c.rxBuf byte
  d.frames.foldl dispatch { c with rxBuf := d.rest }

/-- The body of `check`; the Boolean tells whether the promise is resolved. -/
def check (c : Client) : Client × Bool :=
  if 0 < c.rxBuf.length then ({ c with port := c.port ++ [.ready] }, true) else (c, false)

@[simp] theorem send_bytes (c : Client) (m : Message) : (c.send m).2 = m.encode := by
  cases m <;> rfl

@[simp] theorem send_rxBuf (c : Client) (m : Message) : (c.send m).1.rxBuf = c.rxBuf := by
  cases m <;> rfl

@[simp] theorem dispatch_rxBuf (c : Client) (d : Dispatched) : (c.dispatch d).rxBuf = c.rxBuf := by
  cases d <;> rfl

theorem foldl_dispatch_rxBuf (c : Client) (ds : List Dispatched) :
    (ds.foldl dispatch c).rxBuf = c.rxBuf := by
  induction ds generalizing c with
  | nil => rfl
  | cons d ds ih => rw [List.foldl_cons, ih, dispatch_rxBuf]

@[simp] theorem onByte_rxBuf (c : Client) (byte : UInt8) :
    (c.onByte byte).rxBuf = (WasiVST.receive c.rxBuf byte).rest :=
  foldl_dispatch_rxBuf _ _

theorem pushLog_length_le (logs : List LogEntry) (entry : LogEntry) (h : logs.length ≤ 1000) :
    (pushLog logs entry).length ≤ 1000 := by
  rw [pushLog]
  split
  · rw [List.length_tail, List.length_append, List.length_singleton]
    omega
  · omega

end Client
end Wasivst
