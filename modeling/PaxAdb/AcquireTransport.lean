import PaxAdb.SmartSocket

/-!
# Looking for a transport

`acquire_one_transport` looks for the one transport that a request can mean. It goes over the list
with the transport found so far, stops at a second one, and looks at the state of the transport
only afterwards. A caller that waits for a state makes it start again, a second later and over what
the list is then.
-/

namespace PaxAdb.Selection

open Sockets (ConnectionState TransportKind text)

structure Device where
  type : TransportKind
  connectionState : ConnectionState
  serial : Option (List Byte)
  devpath : Option (List Byte)
  product : Option (List Byte)
  model : Option (List Byte)
  device : Option (List Byte)
  deriving DecidableEq, Repr

def qualCharIsInvalid (c : Byte) : Bool :=
  ¬((0x41 ≤ c ∧ c ≤ 0x5a) ∨ (0x61 ≤ c ∧ c ≤ 0x7a) ∨ (0x30 ≤ c ∧ c ≤ 0x39))

def matchStart : List Byte → List Byte → Option (List Byte)
  | [], toTest => some toTest
  | c :: start, toTest => if toTest.head? = some c then matchStart start toTest.tail else none

def matchQual (sanitizeQual : Bool) : List Byte → List Byte → Bool
  | [], toTest => toTest = []
  | c :: qual, toTest =>
      let ch := if sanitizeQual && qualCharIsInvalid c then 0x5f else c
      if toTest.head? = some ch then matchQual sanitizeQual qual toTest.tail else false

def qualMatch (toTest start : List Byte) (qual : Option (List Byte)) (sanitizeQual : Bool) : Bool :=
  if toTest = [] then qual.getD [] = []
  else
    match qual with
    | none => false
    | some qual => (matchStart start toTest).any (matchQual sanitizeQual qual)

def serialTest (d : Device) (serial : List Byte) : Bool :=
  d.serial = some serial || d.devpath = some serial ||
    qualMatch serial (text "product:") d.product false ||
    qualMatch serial (text "model:") d.model true ||
    qualMatch serial (text "device:") d.device false

def branch (d : Device) (ttype : Option TransportKind) (serial : Option (List Byte)) :
    Option (List Byte) :=
  match serial with
  | some serial => if serialTest d serial then some (text "more than one device") else none
  | none =>
      if ttype = some .kTransportUsb ∧ d.type = .kTransportUsb then
        some (text "more than one device")
      else if ttype = some .kTransportLocal ∧ d.type = .kTransportLocal then
        some (text "more than one emulator")
      else if ttype = some .kTransportAny then some (text "more than one device and emulator")
      else none

structure Search (α : Type*) where
  result : Option α
  ambiguous : Bool
  error : Option (List Byte)

variable {α : Type*} (device : α → Device) (state : Option ConnectionState)
  (ttype : Option TransportKind) (serial : Option (List Byte))

def searchLoop : List α → Search α → Search α
  | [], x => x
  | t :: ts, x =>
      if (device t).connectionState = .noperm then
        searchLoop ts { x with error := some (text "insufficient permissions for device") }
      else
        match branch (device t) ttype serial, x.result with
        | none, _ => searchLoop ts x
        | some _, none => searchLoop ts { x with result := some t }
        | some error, some _ => ⟨none, true, some error⟩

def checkState (x : Search α) : Search α :=
  match x.result with
  | none => x
  | some t =>
      if (device t).connectionState = .unauthorized then
        { x with result := none, error := some (text
          "device unauthorized. Please check the confirmation dialog on your device.") }
      else if (device t).connectionState = .offline then
        { x with result := none, error := some (text "device offline") }
      else if state ≠ none ∧ state ≠ some (device t).connectionState then
        { x with result := none, error := some (text "invalid device state") }
      else { x with error := none }

def round (ts : List α) (ambiguous : Bool) : Search α :=
  checkState device state
    (searchLoop device ttype serial ts ⟨none, ambiguous, some (text "device not found")⟩)

/-- The lists are `transport_list` at each round. `none` stands for a call that has gone to sleep
after the last of them. -/
def acquireRounds : List (List α) → Bool → Option (Search α)
  | [], _ => none
  | ts :: rounds, ambiguous =>
      let x := round device state ttype serial ts ambiguous
      if x.result.isNone ∧ state ≠ none ∧ (serial ≠ none ∨ x.ambiguous = false) then
        acquireRounds rounds x.ambiguous
      else some x

/-- `CS_ANY` is the state `none`, and `kTransportHost` the type `none`. -/
def acquireOneTransport (rounds : List (List α)) : Option (Search α) :=
  acquireRounds device state ttype serial rounds false

/-- What a caller that does not wait makes of it. -/
def outcome (x : Search α) : Except (List Byte) α :=
  match x.result with
  | some t => .ok t
  | none => .error (x.error.getD [])

end PaxAdb.Selection
