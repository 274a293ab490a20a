import Wasivst.Vst2.Passthrough

/-!
# A VST2 call across the bridge

`Vst2EventHandler::send_event` with the `DefaultDataConverter`, the two messages on the wire and
`passthrough_event` on the other side, against the call that they stand for. `data` is a null
pointer or points at characters; a nonempty string is taken for an argument, an empty one for
room for a result.
-/

set_option autoImplicit false

namespace Vst2
open InPlace

/-- What `data` points at. -/
abbrev Memory := Option (List UInt8)

def cString (bytes : List UInt8) : List UInt8 := bytes.takeWhile (· != 0)

/-- `str[0] != 0` -/
def hasString (bytes : List UInt8) : Bool := bytes.headD 0 != 0

/-- A string and its terminator, over what is there. -/
def storeString (bytes string : List UInt8) : List UInt8 :=
  string ++ 0 :: bytes.drop (string.length + 1)

namespace DefaultDataConverter

def read_data : Memory → Vst2Event.Payload
  | none => .nullptr
  | some bytes => if hasString bytes then .string (cString bytes) else .wantsString

def read_value (_value : UInt64) : Option Vst2Event.Payload := none

end DefaultDataConverter

/-- What a call comes to: its value, what `data` points at then, and the `AEffect`. -/
structure Called where
  return_value : UInt64
  data : Memory
  plugin : AEffect

section Call
variable (callback : Callback) (plugin : AEffect) (opcode index : UInt32) (value : UInt64)
variable (data : Memory) (option : UInt32)

def event : Vst2Event where
  opcode := opcode
  index := index
  value := value
  option := option
  payload := DefaultDataConverter.read_data data
  value_payload := DefaultDataConverter.read_value value

/-- The call itself. -/
def call : Outcome :=
  callback.call plugin opcode index (.integer value)
    (read_payload_fn (DefaultDataConverter.read_data data)) option

/-- What the callback leaves at `data`. -/
def written (o : Outcome) : Memory → Memory
  | none => none
  | some bytes =>
    if hasString bytes then
      match o.data with
      | .string s => some (s ++ bytes.drop s.length)
      | _ => some bytes
    else some (storeString bytes o.text)

/-- What the bridge leaves there. -/
def returned (o : Outcome) : Memory → Memory :=
  Option.map fun bytes => if hasString bytes then bytes else storeString bytes o.text

def direct : Called :=
  let o := call callback plugin opcode index value data option
  ⟨o.return_value, written o data, o.plugin⟩

end Call

variable {callback : Callback} {plugin : AEffect} {opcode index : UInt32} {value : UInt64}
variable {data : Memory} {option : UInt32} (B : Bitsery)

/-- Only room for a string comes back with something in it. -/
def response (o : Outcome) : Vst2Event.Payload → Vst2EventResult.Payload
  | .wantsString => .string o.text
  | _ => .nullptr

end Vst2
