import Mathlib.Data.List.TakeWhile
import PaxAdb.SmartMoves
import PaxAdb.StringBuffer

/-!
# Forward requests

The `forward` command puts its arguments into a request string, `_adb_connect` sends it with its
length in front, and a smart socket of the server takes it apart again: `smart_socket_enqueue` finds
the device, `handle_host_request` the kind of request, and `handle_forward_request` the two specs.
-/

namespace PaxAdb.Forward

open Sockets (text cString ASocket TransportKind HostRequest parseHostRequest skipHostSerial
  smartRequest smartSocketCollect serialPrefixes unhex unhexDigit unhexLoop)
open Sockets.Server (hex4)
open List

section Command

structure Serial where
  name : List Byte
  fits : name.length + (text "host-serial:").length < 64
  noNul : 0 ∉ name

inductive Selector where
  | any
  | usb
  | emulator
  | serial (s : Serial)

def Selector.ttype : Selector → TransportKind
  | .usb => .kTransportUsb
  | .emulator => .kTransportLocal
  | _ => .kTransportAny

def Selector.serialName : Selector → Option (List Byte)
  | .serial s => some s.name
  | _ => none

/-- The string that `snprintf` leaves in its buffer. -/
def snprintf (size : ℕ) (bytes : List Byte) : List Byte := (CString.snprintf size bytes).dropLast

def serialPrefix (serial : List Byte) : List Byte := snprintf 64 (text "host-serial:" ++ serial)

def hostPrefix : Selector → List Byte
  | .serial s => serialPrefix s.name
  | .usb => snprintf 64 (text "host-usb")
  | .emulator => snprintf 64 (text "host-local")
  | .any => snprintf 64 (text "host")

def forwardFor (host : List Byte) (noRebind : Bool) (localSpec remoteSpec : List Byte) :
    List Byte :=
  let command := if noRebind then text "forward:norebind:" else text "forward"
  snprintf 4096 (host ++ text ":" ++ command ++ text ":" ++ localSpec ++ text ";" ++ remoteSpec)

def removeFor (host localSpec : List Byte) : List Byte :=
  snprintf 4096 (host ++ text ":killforward:" ++ localSpec)

def forwardRequest (sel : Selector) (noRebind : Bool) (localSpec remoteSpec : List Byte) :
    List Byte := forwardFor (hostPrefix sel) noRebind localSpec remoteSpec

def removeRequest (sel : Selector) (localSpec : List Byte) : List Byte :=
  removeFor (hostPrefix sel) localSpec

structure Options where
  list : Bool
  remove : Bool
  removeAll : Bool
  noRebind : Bool
  deriving DecidableEq, Repr

def parseOptions : Options → List (List Byte) → Option (Options × List (List Byte))
  | options, [] => some (options, [])
  | options, arg :: args =>
      if arg.head? = some 0x2d then
        if arg = text "--list" then parseOptions { options with list := true } args
        else if arg = text "--remove" then parseOptions { options with remove := true } args
        else if arg = text "--remove-all" then parseOptions { options with removeAll := true } args
        else if arg = text "--no-rebind" then parseOptions { options with noRebind := true } args
        else none
      else some (options, arg :: args)

def Options.count (o : Options) : ℕ :=
  o.list.toNat + o.remove.toNat + o.removeAll.toNat + o.noRebind.toNat

inductive CommandResult where
  | usage
  | query (request : List Byte)
  | command (request : List Byte)
  deriving DecidableEq, Repr

def forwardCommandFor (host : List Byte) (args : List (List Byte)) : CommandResult :=
  match parseOptions ⟨false, false, false, false⟩ args with
  | none => .usage
  | some (options, args) =>
      if 1 < options.count then .usage
      else if options.list then
        match args with
        | [] => .query (snprintf 4096 (host ++ text ":list-forward"))
        | _ => .usage
      else if options.removeAll then
        match args with
        | [] => .command (snprintf 4096 (host ++ text ":killforward-all"))
        | _ => .usage
      else if options.remove then
        match args with
        | [localSpec] => .command (removeFor host localSpec)
        | _ => .usage
      else
        match args with
        | [localSpec, remoteSpec] =>
            .command (forwardFor host options.noRebind localSpec remoteSpec)
        | _ => .usage

def forwardCommand (sel : Selector) (args : List (List Byte)) : CommandResult :=
  forwardCommandFor (hostPrefix sel) args

def connectBytes (service : List Byte) : Option (List Byte) :=
  if service.length < 1 ∨ 1024 < service.length then none
  else some (hex4 service.length ++ service)

end Command

section Server

inductive ForwardAction where
  | listListeners
  | removeAllListeners
  | malformed
  | installListener (localSpec remoteSpec : List Byte) (noRebind : Bool)
  | removeListener (localSpec : List Byte)
  deriving DecidableEq, Repr

def afterChar (c : Byte) (s : List Byte) : List Byte := (s.dropWhile (· ≠ c)).drop 1

def createForward (spec : List Byte) (noRebind : Bool) : ForwardAction :=
  if 0x3b ∉ spec then .malformed
  else
    let localSpec := spec.takeWhile (· ≠ 0x3b)
    let remoteSpec := afterChar 0x3b spec
    if localSpec = [] ∨ remoteSpec = [] ∨ remoteSpec.head? = some 0x2a then .malformed
    else .installListener localSpec remoteSpec noRebind

def handleForwardRequest (service : List Byte) : Option ForwardAction :=
  if service = text "list-forward" then some .listListeners
  else if service = text "killforward-all" then some .removeAllListeners
  else if (text "forward:").isPrefixOf service ∨ (text "killforward:").isPrefixOf service then
    let spec := afterChar 0x3a service
    if (text "kill").isPrefixOf service then
      if spec = [] then some .malformed else some (.removeListener spec)
    else if (text "norebind:").isPrefixOf spec then
      some (createForward (afterChar 0x3a spec) true)
    else some (createForward spec false)
  else none

inductive HostAction where
  | kill
  | transport
  | devices (useLong : Bool)
  | disconnect (serial : List Byte)
  | version
  | getSerialno
  | getDevpath
  | emulator
  | getState
  | forward (action : ForwardAction)
  | unknown
  deriving DecidableEq, Repr

def handleHostRequest (service : List Byte) : HostAction :=
  if service = text "kill" then .kill
  else if (text "transport").isPrefixOf service then .transport
  else if service = text "devices-l" then .devices true
  else if service = text "devices" then .devices false
  else if (text "disconnect:").isPrefixOf service then .disconnect (service.drop 11)
  else if service = text "version" then .version
  else if (text "get-serialno").isPrefixOf service then .getSerialno
  else if (text "get-devpath").isPrefixOf service then .getDevpath
  else if (text "emulator:").isPrefixOf service then .emulator
  else if (text "get-state").isPrefixOf service then .getState
  else
    match handleForwardRequest service with
    | some action => .forward action
    | none => .unknown

structure Served where
  action : HostAction
  ttype : TransportKind
  serial : Option (List Byte)
  deriving DecidableEq, Repr

def serve (s : ASocket) (bytes : List Byte) : Option Served := do
  let service ← smartRequest s bytes
  let request ← parseHostRequest service
  pure ⟨handleHostRequest request.service, request.ttype, request.serial⟩

end Server

variable {a word localSpec service : List Byte}

section Specs

/-- A pair of specs the command can be given: neither is empty or has a semicolon, and neither looks
like something else to the server. -/
structure Spec where
  localSpec : List Byte
  remoteSpec : List Byte
  localSpec_ne : localSpec ≠ []
  remoteSpec_ne : remoteSpec ≠ []
  localSpec_semicolon : 0x3b ∉ localSpec
  remoteSpec_semicolon : 0x3b ∉ remoteSpec
  localSpec_norebind : ¬text "norebind:" <+: localSpec
  remoteSpec_star : remoteSpec.head? ≠ some 0x2a
  localSpec_nul : 0 ∉ localSpec
  remoteSpec_nul : 0 ∉ remoteSpec

def forwardService (noRebind : Bool) (spec : Spec) : List Byte :=
  text "forward:" ++ ((if noRebind then text "norebind::" else []) ++ spec.localSpec ++
    text ";" ++ spec.remoteSpec)

def removeService (spec : Spec) : List Byte := text "killforward:" ++ spec.localSpec

variable (spec : Spec)

theorem afterChar_append {c : Byte} (h : c ∉ a) (b : List Byte) :
    afterChar c (a ++ c :: b) = b := by
  rw [afterChar, dropWhile_append_of_pos]
  · rw [dropWhile_cons_of_neg (by simp)]
    rfl
  · intro x hx
    simp only [ne_eq, decide_eq_true_eq]
    rintro rfl
    exact h hx

theorem takeWhile_append {c : Byte} (h : c ∉ a) (b : List Byte) :
    (a ++ c :: b).takeWhile (· ≠ c) = a := by
  rw [takeWhile_append_of_pos]
  · rw [takeWhile_cons_of_neg (by simp), append_nil]
  · intro x hx
    simp only [ne_eq, decide_eq_true_eq]
    rintro rfl
    exact h hx

theorem cString_eq_self {s : List Byte} (h : 0 ∉ s) : cString s = s := by
  rw [cString, takeWhile_eq_self_iff]
  intro b hb
  rw [decide_eq_true_eq]
  rintro rfl
  exact h hb

theorem prefix_of_prefix_append {c : Byte} {word a b : List Byte} (hc : c ∉ word)
    (h : word <+: a ++ c :: b) : word <+: a := by
  rcases prefix_or_prefix_of_prefix h (prefix_append a (c :: b)) with hword | ha
  · exact hword
  · obtain ⟨rest, rfl⟩ := ha
    rw [prefix_append_right_inj] at h
    cases rest with
    | nil =>
      rw [append_nil]
    | cons d rest =>
      obtain ⟨rfl, _⟩ := cons_prefix_cons.mp h
      exact absurd (mem_append_right _ mem_cons_self) hc

theorem createForward_eq {localSpec remoteSpec : List Byte} (noRebind : Bool)
    (hsemi : 0x3b ∉ localSpec) (hlocal : localSpec ≠ []) (hremote : remoteSpec ≠ [])
    (hstar : remoteSpec.head? ≠ some 0x2a) :
    createForward (localSpec ++ 0x3b :: remoteSpec) noRebind =
      .installListener localSpec remoteSpec noRebind := by
  have hmem : 0x3b ∈ localSpec ++ 0x3b :: remoteSpec :=
    mem_append_right _ mem_cons_self
  simp only [createForward, takeWhile_append hsemi, afterChar_append hsemi]
  rw [if_neg (not_not.mpr hmem), if_neg]
  rintro (h | h | h)
  · exact hlocal h
  · exact hremote h
  · exact hstar h

theorem handleHostRequest_forward (x : List Byte) :
    handleHostRequest (text "forward:" ++ x) =
      .forward (if (text "norebind:").isPrefixOf x then createForward (afterChar 0x3a x) true
        else createForward x false) := by
  by_cases h : (text "norebind:").isPrefixOf x = true
  · rw [if_pos h]
    change (match (if (text "norebind:").isPrefixOf x then _ else _ : Option ForwardAction) with
      | some action => HostAction.forward action
      | none => .unknown) = _
    rw [if_pos h]
    rfl
  · rw [if_neg h]
    change (match (if (text "norebind:").isPrefixOf x then _ else _ : Option ForwardAction) with
      | some action => HostAction.forward action
      | none => .unknown) = _
    rw [if_neg h]
    rfl

theorem handleHostRequest_killforward {x : List Byte} (h : x ≠ []) :
    handleHostRequest (text "killforward:" ++ x) = .forward (.removeListener x) := by
  change (match (if x = [] then _ else _ : Option ForwardAction) with
    | some action => HostAction.forward action
    | none => .unknown) = _
  rw [if_neg h]
  rfl

/-- The server finds the specs again, except that after `--no-rebind` the local spec has a colon in
front of it. -/
theorem handleHostRequest_forwardService (noRebind : Bool) :
    handleHostRequest (forwardService noRebind spec) =
      .forward (.installListener ((if noRebind then [0x3a] else []) ++ spec.localSpec)
        spec.remoteSpec noRebind) := by
  rw [forwardService, handleHostRequest_forward]
  cases noRebind with
  | true =>
    have hafter : afterChar 0x3a (text "norebind::" ++ spec.localSpec ++ text ";" ++
        spec.remoteSpec) = (0x3a :: spec.localSpec) ++ 0x3b :: spec.remoteSpec := by
      rw [append_assoc]
      rfl
    have hsemi : 0x3b ∉ 0x3a :: spec.localSpec := by
      rintro (_ | ⟨_, h⟩)
      exact spec.localSpec_semicolon h
    rw [if_pos rfl, if_pos rfl, hafter, createForward_eq true hsemi nofun spec.remoteSpec_ne
      spec.remoteSpec_star]
    rfl
  | false =>
    have hspec : ([] ++ spec.localSpec ++ text ";" ++ spec.remoteSpec) =
        spec.localSpec ++ 0x3b :: spec.remoteSpec := by
      rw [append_assoc]
      rfl
    have hnot : ¬(text "norebind:").isPrefixOf (spec.localSpec ++ 0x3b :: spec.remoteSpec) := by
      rw [List.isPrefixOf_iff_prefix]
      exact fun h => spec.localSpec_norebind (prefix_of_prefix_append (by decide) h)
    rw [if_neg Bool.false_ne_true, hspec, if_neg hnot, createForward_eq false
      spec.localSpec_semicolon spec.localSpec_ne spec.remoteSpec_ne spec.remoteSpec_star]
    rfl

end Specs

section Parsing

theorem snprintf_eq (size : ℕ) (bytes : List Byte) :
    snprintf size bytes = bytes.take (size - 1) := CString.dropLast_snprintf size bytes

theorem snprintf_of_lt {size : ℕ} {bytes : List Byte} (h : bytes.length < size) :
    snprintf size bytes = bytes := by
  rw [snprintf_eq, take_of_length_le (by omega)]

theorem hostPrefix_serial (s : Serial) :
    hostPrefix (.serial s) = text "host-serial:" ++ s.name := by
  have hfits := s.fits
  rw [hostPrefix, serialPrefix, snprintf_of_lt]
  rw [length_append]
  omega

theorem findIdx_append {c : Byte} (h : c ∉ a) (b : List Byte) :
    (a ++ c :: b).findIdx? (· = c) = some a.length := by
  induction a with
  | nil =>
    rw [nil_append, findIdx?_cons, if_pos (decide_eq_true rfl)]
    rfl
  | cons x a ih =>
    rw [mem_cons, not_or] at h
    rw [cons_append, findIdx?_cons, if_neg (by simpa using Ne.symm h.1), ih h.2]
    rfl

theorem serialPrefixes_stem (h : word ∈ serialPrefixes) :
    ∃ stem, word = stem ++ text ":" ∧ 0x3a ∉ stem := by
  simp only [serialPrefixes, mem_cons, not_mem_nil, or_false] at h
  rcases h with rfl | rfl | rfl | rfl
  · exact ⟨text "usb", rfl, by decide⟩
  · exact ⟨text "product", rfl, by decide⟩
  · exact ⟨text "model", rfl, by decide⟩
  · exact ⟨text "device", rfl, by decide⟩

theorem serialPrefixes_begins {stem word rest : List Byte} (hstem : 0x3a ∉ stem)
    (hmem : word ∈ serialPrefixes) (h : word <+: stem ++ 0x3a :: rest) :
    word = stem ++ text ":" := by
  obtain ⟨tail, htail⟩ := h
  obtain ⟨stem', rfl, hstem'⟩ := serialPrefixes_stem hmem
  rw [append_assoc] at htail
  -- both have their first colon at the same place
  have hsame := congrArg (takeWhile (· ≠ 0x3a)) htail
  rw [takeWhile_append hstem, show text ":" ++ tail = 0x3a :: tail from rfl,
    takeWhile_append hstem'] at hsame
  rw [hsame]

theorem find_serialPrefixes_none {stem : List Byte} (hstem : 0x3a ∉ stem)
    (hword : stem ++ text ":" ∉ serialPrefixes) (rest : List Byte) :
    serialPrefixes.find? (·.isPrefixOf (stem ++ 0x3a :: rest)) = none := by
  rw [find?_eq_none]
  intro word hmem hprefix
  rw [List.isPrefixOf_iff_prefix] at hprefix
  have hsame := serialPrefixes_begins hstem hmem hprefix
  rw [hsame] at hmem
  exact hword hmem

theorem drop_append_cons (name service : List Byte) (c : Byte) :
    (name ++ c :: service).drop (name.length + 1) = service := by
  rw [drop_append, drop_eq_nil_of_le (by omega)]
  simp

theorem takeWhile_digits_nil (h : ∀ c ∈ service.head?, ¬(0x30 ≤ c ∧ c ≤ 0x39)) :
    service.takeWhile (fun c => 0x30 ≤ c ∧ c ≤ 0x39) = [] := by
  cases service with
  | nil => rfl
  | cons c service =>
    rw [takeWhile_cons_of_neg]
    simpa using h c rfl

theorem skipHostSerial_plain {name service : List Byte} (hcolon : 0x3a ∉ name)
    (hword : name ++ text ":" ∉ serialPrefixes)
    (hdigit : ∀ c ∈ service.head?, ¬(0x30 ≤ c ∧ c ≤ 0x39)) :
    skipHostSerial (name ++ 0x3a :: service) = some name.length := by
  simp only [skipHostSerial, find_serialPrefixes_none hcolon hword, findIdx_append hcolon,
    Option.map_some, drop_append_cons, takeWhile_digits_nil hdigit]
  rw [if_neg]
  exact fun h => h.1 rfl

theorem unhexDigit_hex {d : ℕ} (h : d < 16) :
    unhexDigit (UInt8.ofNat (if d < 10 then 0x30 + d else 0x57 + d)) = some d := by
  have hall : ∀ d < 16,
      unhexDigit (UInt8.ofNat (if d < 10 then 0x30 + d else 0x57 + d)) = some d := by decide
  exact hall d h

theorem unhexLoop_hex {d : ℕ} (h : d < 16) (n : ℕ) (s : List Byte) :
    unhexLoop n (UInt8.ofNat (if d < 10 then 0x30 + d else 0x57 + d) :: s) =
      unhexLoop ((n * 16 + d) % 2 ^ 32) s := by
  rw [unhexLoop, unhexDigit_hex h]

theorem unhex_hex4 {n : ℕ} (h : n < 16 ^ 4) : unhex (hex4 n) = n := by
  have h1 : n / 4096 % 16 < 16 := Nat.mod_lt _ (by decide)
  have h2 : n / 256 % 16 < 16 := Nat.mod_lt _ (by decide)
  have h3 : n / 16 % 16 < 16 := Nat.mod_lt _ (by decide)
  have h4 : n % 16 < 16 := Nat.mod_lt _ (by decide)
  rw [unhex, hex4, unhexLoop_hex h1, unhexLoop_hex h2, unhexLoop_hex h3,
    unhexLoop_hex h4, unhexLoop]
  omega

theorem connectBytes_of_length (hpos : 1 ≤ service.length) (hshort : service.length ≤ 1024) :
    connectBytes service = some (hex4 service.length ++ service) :=
  if_neg (not_or.mpr ⟨not_lt.mpr hpos, not_lt.mpr hshort⟩)

theorem collect_of_empty {s : ASocket} (h : s.queue = []) (p : List Byte) :
    smartSocketCollect s p = some p := by
  rw [smartSocketCollect, h]

theorem smartRequest_connectBytes {service bytes p : List Byte} {s : ASocket} (hnul : 0 ∉ service)
    (hcollect : smartSocketCollect s p = some bytes)
    (h : connectBytes service = some bytes) : smartRequest s p = some service := by
  rw [connectBytes] at h
  split at h
  next => cases h
  next hlen =>
    rw [not_or, not_lt, not_lt] at hlen
    cases h
    have htake : (hex4 service.length ++ service).take 4 =
        hex4 service.length := rfl
    have hdrop : (hex4 service.length ++ service).drop 4 = service := rfl
    have hall : (hex4 service.length ++ service).length = service.length + 4 := rfl
    simp only [smartRequest, hcollect, htake, hdrop, hall,
      unhex_hex4 (by omega : service.length < 16 ^ 4)]
    rw [if_neg (by omega), take_length, cString_eq_self hnul]

theorem nul_notMem_hostPrefix (sel : Selector) : 0 ∉ hostPrefix sel := by
  cases sel with
  | any | usb | emulator => decide
  | serial s =>
    rw [hostPrefix_serial, mem_append, not_or]
    exact ⟨by decide, s.noNul⟩

end Parsing

section Requests

def newSmart (client : Sockets.Addr) : ASocket :=
  { id := 0, closing := false, peer := some client, fde := ⟨.none, .none, false, false⟩,
    queue := [],
    enqueue := .smartSocketEnqueue, ready := .smartSocketReady, shutdown := none,
    close := .smartSocketClose, transport := none, updateNeeded := false }

theorem nul_notMem_forwardService (spec : Spec) (noRebind : Bool) :
    0 ∉ forwardService noRebind spec := by
  simp only [forwardService, mem_append, not_or]
  refine ⟨by decide, ⟨⟨?_, spec.localSpec_nul⟩, by decide⟩, spec.remoteSpec_nul⟩
  cases noRebind <;> decide

theorem nul_notMem_removeService (spec : Spec) : 0 ∉ removeService spec := by
  simp only [removeService, mem_append, not_or]
  exact ⟨by decide, spec.localSpec_nul⟩

theorem parseOptions_spec {options : Options} {arg : List Byte} (h : arg.head? ≠ some 0x2d)
    (args : List (List Byte)) :
    parseOptions options (arg :: args) = some (options, arg :: args) := by
  rw [parseOptions, if_neg h]

theorem forwardCommand_forward (sel : Selector) (noRebind : Bool)
    (h : localSpec.head? ≠ some 0x2d) (remoteSpec : List Byte) : forwardCommand sel
        ((if noRebind then [text "--no-rebind"] else []) ++ [localSpec, remoteSpec]) =
      .command (forwardRequest sel noRebind localSpec remoteSpec) := by
  have hoptions : parseOptions ⟨false, false, false, false⟩
      ((if noRebind then [text "--no-rebind"] else []) ++ [localSpec, remoteSpec]) =
      some (⟨false, false, false, noRebind⟩, [localSpec, remoteSpec]) := by
    cases noRebind with
    | false | true => exact parseOptions_spec h [remoteSpec]
  rw [forwardCommand, forwardCommandFor, hoptions]
  cases noRebind <;> rfl

theorem forwardCommand_remove (sel : Selector) (h : localSpec.head? ≠ some 0x2d) :
    forwardCommand sel [text "--remove", localSpec] = .command (removeRequest sel localSpec) := by
  have hoptions : parseOptions ⟨false, false, false, false⟩ [text "--remove", localSpec] =
      some (⟨false, true, false, false⟩, [localSpec]) := parseOptions_spec h []
  rw [forwardCommand, forwardCommandFor, hoptions]
  rfl

end Requests

end PaxAdb.Forward
