import PaxAdb.Decimal
import PaxAdb.SerialAddressing

/-!
# Connecting to a device over TCP, and disconnecting from it

The service `connect:A` takes the host and the port out of `A` and registers a transport under a
serial number it prints from them; `disconnect:A` looks for a transport whose serial number is `A`
itself, with the default port when `A` has none.
-/

namespace PaxAdb.Connect

open Sockets (text unhexDigit)
open Decimal List Forward

abbrev TransportId := ℕ

def DEFAULT_ADB_LOCAL_TRANSPORT_PORT : ℤ := 5555

structure Env where
  /-- the bytes behind `hostbuf[98]` up to the next NUL -/
  hostTail : List Byte
  /-- the uninitialised `port` of `connect_device` -/
  port : ℤ
  /-- `socket_network_client_timeout` succeeds -/
  connects : List Byte → ℤ → Bool
  /-- one of the sockets of `local_connect_arbitrary_ports` is connected -/
  connectsLocal : ℤ → Bool
  /-- `find_emulator_transport_by_adb_port` finds a transport -/
  emulatorKnown : ℤ → Bool
  /-- `get_available_local_transport_index` finds a slot -/
  slotAvailable : Bool

structure Attempt where
  serial : List Byte
  port : ℤ
  isLocal : Bool
  failed : List Byte
  succeeded : List Byte
  deriving DecidableEq, Repr

section Service

variable (env : Env)

def connectTo (host hostbuf : List Byte) (port : ℤ) : Except (List Byte) Attempt :=
  let serial := snprintf 100 (hostbuf ++ text ":" ++ decimal port)
  if env.connects hostbuf port then
    .ok ⟨serial, port, false, snprintf 4096 (text "already connected to " ++ serial),
      snprintf 4096 (text "connected to " ++ serial)⟩
  else .error (snprintf 4096 (text "unable to connect to " ++ host ++ text ":" ++ decimal port))

/-- Without a colon, `hostbuf` has no NUL when all of its 99 bytes are copied. -/
def connectDevice (host : List Byte) : Except (List Byte) Attempt :=
  match host.findIdx? (· = 0x3a) with
  | some i =>
      if 100 ≤ i then .error (snprintf 4096 (text "bad host name " ++ host))
      else
        match scan (host.drop (i + 1)) with
        | .mismatch => .error (snprintf 4096 (text "bad port number " ++ host.drop i))
        | .eof => connectTo env host (host.take i) env.port
        | .int port => connectTo env host (host.take i) port
  | none =>
      connectTo env host (if host.length < 99 then host else host.take 99 ++ env.hostTail)
        DEFAULT_ADB_LOCAL_TRANSPORT_PORT

/-- The base of `strtol(s, NULL, 0)` and the text its digits are taken from. -/
def takeBase : List Byte → ℕ × List Byte
  | 0x30 :: c :: d :: s =>
      if (c = 0x78 ∨ c = 0x58) ∧ (unhexDigit d).isSome then (16, d :: s)
      else (8, 0x30 :: c :: d :: s)
  | 0x30 :: s => (8, 0x30 :: s)
  | s => (10, s)

def strtol (s : List Byte) : ℤ :=
  let (negative, s) := takeSign (s.dropWhile isSpace)
  let (base, s) := takeBase s
  let ds := (s.map unhexDigit).takeWhile (fun d => d.any (· < base))
  let n := ds.foldl (fun n d => base * n + d.getD 0) 0
  toInt (if negative then -(n : ℤ) else n)

def connectEmulator (spec : List Byte) : Except (List Byte) Attempt :=
  match spec.findIdx? (· = 0x2c) with
  | none =>
      .error (snprintf 4096 (text "unable to parse '" ++ spec ++
        text "' as <console port>,<adb port>"))
  | some i =>
      let consolePort := strtol (spec.take i)
      let adbPort := strtol (spec.drop (i + 1))
      if ¬(0 < consolePort ∧ 0 < adbPort) then
        .error (snprintf 4096 (text "Invalid port numbers: Expected positive numbers, got '" ++
          spec ++ text "'"))
      else if env.emulatorKnown adbPort then
        .error (snprintf 4096 (text "Emulator on port " ++ decimal adbPort ++
          text " already registered."))
      else if ¬env.slotAvailable then
        .error (snprintf 4096 (text "Cannot accept more emulators."))
      else if env.connectsLocal adbPort then
        -- the result of the registration is not looked at
        let answer := snprintf 4096 (text "Connected to emulator on ports " ++
          decimal consolePort ++ text "," ++ decimal adbPort)
        .ok ⟨snprintf 64 (text "emulator-" ++ decimal consolePort), adbPort, true, answer, answer⟩
      else
        .error (snprintf 4096 (text "Could not connect to emulator on ports " ++
          decimal consolePort ++ text "," ++ decimal adbPort))

def connectService (host : List Byte) : Except (List Byte) Attempt :=
  if (text "emu:").isPrefixOf host then connectEmulator env (host.drop 4)
  else connectDevice env host

end Service

section Disconnect

/-- The serial number `disconnect:A` looks for; without an address all TCP devices are
disconnected. -/
def disconnectSerial (address : List Byte) : Option (List Byte) :=
  if address = [] then none
  else if 0x3a ∈ address then some address
  else some (snprintf 99 (address ++ text ":5555"))

abbrev Transports := List (TransportId × Option (List Byte))

def findTransport (transportList : Transports) (serial : List Byte) : Option TransportId :=
  (transportList.find? (·.2 = some serial)).map (·.1)

def serialTaken (pendingList transportList : Transports) (serial : List Byte) : Bool :=
  pendingList.any (·.2 = some serial) || transportList.any (·.2 = some serial)

/-- Once the new transport `t` is on `transport_list`, where only older ones stand before it,
`disconnect:A` finds it. -/
def DisconnectFinds (pendingList transportList : Transports) (t : TransportId)
    (serial address : List Byte) : Prop :=
  ∀ before after : Transports, (∀ u ∈ before, u ∈ pendingList ∨ u ∈ transportList) →
    (disconnectSerial address).bind (findTransport (before ++ (t, some serial) :: after)) = some t

def PortWritten (address : List Byte) (port : ℤ) : Prop :=
  match address.findIdx? (· = 0x3a) with
  | some i => number (address.drop (i + 1)) = some port
  | none => port = DEFAULT_ADB_LOCAL_TRANSPORT_PORT

/-- The addresses both services understand in the same way: a short host, or a host and an `int` as
`%d` prints it. -/
def Agreeing (address : List Byte) : Prop :=
  address ≠ [] ∧ ¬text "emu:" <+: address ∧
    ((0x3a ∉ address ∧ address.length ≤ 93) ∨
      ∃ host n, address = host ++ 0x3a :: decimal n ∧ 0x3a ∉ host ∧ -2 ^ 31 ≤ n ∧ n < 2 ^ 31 ∧
        address.length ≤ 99)

variable {pendingList transportList : Transports} {t : TransportId} {serial address : List Byte}

theorem findTransport_some {list : Transports} (h : findTransport list serial = some t) :
    (t, some serial) ∈ list := by
  obtain ⟨u, hu, rfl⟩ := Option.map_eq_some_iff.mp h
  have hserial : u.2 = some serial := by simpa using find?_some hu
  rw [← hserial]
  exact mem_of_find?_eq_some hu

theorem disconnectFinds_iff (hnew : serialTaken pendingList transportList serial = false) :
    DisconnectFinds pendingList transportList t serial address ↔
      disconnectSerial address = some serial := by
  constructor
  · intro hfinds
    have hone := hfinds [] [] nofun
    obtain ⟨serial', hserial', hfound⟩ := Option.bind_eq_some_iff.mp hone
    have hmem := mem_singleton.mp (findTransport_some hfound)
    rw [hserial', (Prod.mk.inj hmem).2]
  · intro hserial before after hold
    rw [hserial, Option.bind_some, findTransport, find?_append]
    have hnone : before.find? (·.2 = some serial) = none := by
      rw [find?_eq_none]
      intro u hu hsame
      rw [serialTaken, Bool.or_eq_false_iff, any_eq_false, any_eq_false] at hnew
      rcases hold u hu with hmem | hmem
      · exact hnew.1 u hmem hsame
      · exact hnew.2 u hmem hsame
    rw [hnone, Option.none_or, find?_cons_of_pos (by simp)]
    rfl

end Disconnect

section Agreement

variable {env : Env} {attempt : Attempt} {host port address : List Byte}

theorem findIdx_none (hcolon : 0x3a ∉ address) : address.findIdx? (· = 0x3a) = none := by
  rw [findIdx?_eq_none_iff]
  intro c hc
  rw [decide_eq_false_iff_not]
  rintro rfl
  exact hcolon hc

theorem connectTo_ok {hostbuf : List Byte} {n : ℤ}
    (h : connectTo env host hostbuf n = .ok attempt) :
    attempt.port = n ∧ attempt.serial = snprintf 100 (hostbuf ++ text ":" ++ decimal n) := by
  rw [connectTo] at h
  split at h
  · cases h
    exact ⟨rfl, rfl⟩
  · cases h

theorem connectDevice_plain (hcolon : 0x3a ∉ address)
    (h : connectDevice env address = .ok attempt) :
    attempt.port = DEFAULT_ADB_LOCAL_TRANSPORT_PORT ∧
      attempt.serial = snprintf 100
        ((if address.length < 99 then address else address.take 99 ++ env.hostTail) ++
          text ":5555") := by
  rw [connectDevice, findIdx_none hcolon] at h
  obtain ⟨hport, hserial⟩ := connectTo_ok h
  refine ⟨hport, ?_⟩
  rw [hserial, append_assoc]
  rfl

/-- With a port, the serial number is printed from the host and the `int` that was found, unless
there is nothing behind the colon. -/
theorem connectDevice_port (hhost : 0x3a ∉ host)
    (h : connectDevice env (host ++ 0x3a :: port) = .ok attempt) :
    attempt.serial = snprintf 100 (host ++ text ":" ++ decimal attempt.port) ∧
      (scan port = .int attempt.port ∨ scan port = .eof) := by
  rw [connectDevice, findIdx_append hhost] at h
  dsimp only at h
  rw [drop_append_cons, take_left] at h
  split at h
  next => cases h
  next =>
    cases hscan : scan port with
    | mismatch =>
      rw [hscan] at h
      cases h
    | eof =>
      rw [hscan] at h
      obtain ⟨hport, hserial⟩ := connectTo_ok h
      rw [hport]
      exact ⟨hserial, Or.inr rfl⟩
    | int n =>
      rw [hscan] at h
      obtain ⟨hport, hserial⟩ := connectTo_ok h
      rw [hport]
      exact ⟨hserial, Or.inl rfl⟩

theorem connectEmulator_serial {spec : List Byte} (h : connectEmulator env spec = .ok attempt) :
    ∃ n, attempt.serial = snprintf 64 (text "emulator-" ++ decimal n) := by
  rw [connectEmulator] at h
  split at h
  next => cases h
  next i _ =>
    dsimp only at h
    repeat' split at h
    all_goals cases h
    exact ⟨strtol (spec.take i), rfl⟩

theorem plain_agree_iff (hcolon : 0x3a ∉ address) (hne : address ≠ [])
    (h : connectDevice env address = .ok attempt) :
    disconnectSerial address = some attempt.serial ↔ address.length ≤ 93 := by
  have hdefault : (text ":5555").length = 5 := rfl
  rw [disconnectSerial, if_neg hne, if_neg hcolon, (connectDevice_plain hcolon h).2,
    Option.some.injEq]
  constructor
  · intro hsame
    by_contra hlong
    have hlen := congrArg length hsame
    rw [snprintf_eq, snprintf_eq, length_take, length_take, length_append,
      length_append, hdefault] at hlen
    split at hlen
    next => omega
    next =>
      rw [length_append, length_take] at hlen
      omega
  · intro hshort
    rw [if_pos (by omega), snprintf_of_lt, snprintf_of_lt]
    all_goals
      rw [length_append, hdefault]
      omega

/-- With a port, the printed serial number is the address exactly when the port is written as it is
printed and nothing is cut. -/
theorem port_agree_iff (hhost : 0x3a ∉ host)
    (h : connectDevice env (host ++ 0x3a :: port) = .ok attempt) :
    host ++ 0x3a :: port = attempt.serial ∧ number port = some attempt.port ↔
      (∃ n, port = decimal n ∧ -2 ^ 31 ≤ n ∧ n < 2 ^ 31) ∧
        (host ++ 0x3a :: port).length ≤ 99 := by
  obtain ⟨hserial, hscan⟩ := connectDevice_port hhost h
  have hprinted : host ++ text ":" ++ decimal attempt.port =
      host ++ 0x3a :: decimal attempt.port := by
    rw [append_assoc]
    rfl
  rw [hprinted] at hserial
  constructor
  · rintro ⟨hsame, hnumber⟩
    have hprint := length_decimal_le hnumber
    rw [hserial] at hsame
    have hlen := congrArg length hsame
    rw [snprintf_eq, length_take, length_append, length_append, length_cons, length_cons] at hlen
    have hshort : (host ++ 0x3a :: decimal attempt.port).length < 100 := by
      rw [length_append, length_cons]
      omega
    rw [snprintf_of_lt hshort] at hsame
    have hport : port = decimal attempt.port := by
      simpa using append_cancel_left hsame
    have hint : scan port = .int attempt.port := by
      rcases hscan with hint | heof
      · exact hint
      · rw [scan] at heof
        split at heof
        next hblank =>
          rw [number_of_blank hblank] at hnumber
          cases hnumber
        next => rw [hnumber] at heof; cases heof
    have hrange : attempt.port = toInt attempt.port := by
      rw [scan] at hint
      split at hint
      next => cases hint
      next =>
        rw [hnumber] at hint
        exact (Scan.int.inj hint).symm
    refine ⟨⟨attempt.port, hport, ?_, ?_⟩, ?_⟩
    · rw [hrange]
      exact le_toInt _
    · rw [hrange]
      exact toInt_lt _
    · rw [hport]
      omega
  · rintro ⟨⟨n, rfl, hlow, hhigh⟩, hlen⟩
    have hport : attempt.port = n := by
      rw [scan_decimal hlow hhigh] at hscan
      rcases hscan with hint | heof
      · exact (Scan.int.inj hint).symm
      · cases heof
    rw [hserial, hport, snprintf_of_lt (by omega)]
    exact ⟨rfl, number_decimal n⟩

/-- For every address under which `connect` registers a transport, `disconnect` finds it and the
port is the one that was written exactly when the address is one both services agree on. -/
theorem connect_disconnect_iff (env : Env) (address : List Byte) (attempt : Attempt)
    (pendingList transportList : Transports) (t : TransportId)
    (hconnect : connectService env address = .ok attempt)
    (hnew : serialTaken pendingList transportList attempt.serial = false) :
    DisconnectFinds pendingList transportList t attempt.serial address ∧
        PortWritten address attempt.port ↔ Agreeing address := by
  rw [disconnectFinds_iff hnew, Agreeing]
  rw [connectService] at hconnect
  by_cases hemu : (text "emu:").isPrefixOf address = true
  · rw [if_pos hemu] at hconnect
    rw [List.isPrefixOf_iff_prefix] at hemu
    refine iff_of_false ?_ fun hagree => hagree.2.1 hemu
    rintro ⟨hserial, -⟩
    obtain ⟨n, hn⟩ := connectEmulator_serial hconnect
    obtain ⟨rest, rfl⟩ := hemu
    have hself : disconnectSerial (text "emu:" ++ rest) = some (text "emu:" ++ rest) := rfl
    rw [hself, hn, Option.some.injEq] at hserial
    have hfourth : (text "emu:" ++ rest)[3]? = some 0x6c := by
      rw [hserial]
      rfl
    cases hfourth
  · rw [if_neg hemu] at hconnect
    rw [List.isPrefixOf_iff_prefix] at hemu
    rw [and_iff_right hemu]
    by_cases hcolon : 0x3a ∈ address
    · obtain ⟨host, port, rfl, hhost⟩ := eq_append_cons_of_mem hcolon
      have hne : host ++ 0x3a :: port ≠ [] := append_ne_nil_of_right_ne_nil _ nofun
      rw [disconnectSerial, if_neg hne, if_pos hcolon, PortWritten, findIdx_append hhost,
        Option.some.injEq]
      dsimp only
      rw [drop_append_cons, port_agree_iff hhost hconnect]
      constructor
      · rintro ⟨⟨n, rfl, hlow, hhigh⟩, hlen⟩
        exact ⟨hne, Or.inr ⟨host, n, rfl, hhost, hlow, hhigh, hlen⟩⟩
      · rintro ⟨-, ⟨hplain, -⟩ | ⟨host', n, heq, hhost', hlow, hhigh, hlen⟩⟩
        · exact absurd hcolon hplain
        · exact ⟨⟨n, (first_colon_inj hhost hhost' heq).2, hlow, hhigh⟩, hlen⟩
    · have hport : PortWritten address attempt.port := by
        rw [PortWritten, findIdx_none hcolon]
        exact (connectDevice_plain hcolon hconnect).1
      rw [and_iff_left hport]
      by_cases hne : address = []
      · refine iff_of_false ?_ fun hagree => hagree.1 hne
        rw [disconnectSerial, if_pos hne]
        exact nofun
      · rw [plain_agree_iff hcolon hne hconnect]
        constructor
        · exact fun hshort => ⟨hne, Or.inl ⟨hcolon, hshort⟩⟩
        · rintro ⟨-, ⟨-, hshort⟩ | ⟨host, n, rfl, -⟩⟩
          · exact hshort
          · exact absurd (mem_append_right _ mem_cons_self) hcolon

def reachable : Env := ⟨[], 0, fun _ _ => true, fun _ => true, fun _ => false, true⟩

def attemptAs (serial : List Byte) (port : ℤ) : Attempt :=
  ⟨serial, port, false, text "already connected to " ++ serial, text "connected to " ++ serial⟩

theorem connect_disconnect_terminal :
    connectService reachable (text "10.0.0.1:5555") = .ok (attemptAs (text "10.0.0.1:5555") 5555) ∧
      (DisconnectFinds [] [] 0 (text "10.0.0.1:5555") (text "10.0.0.1:5555") ∧
          PortWritten (text "10.0.0.1:5555") 5555 ↔ Agreeing (text "10.0.0.1:5555")) :=
  have hconnect : connectService reachable (text "10.0.0.1:5555") =
      .ok (attemptAs (text "10.0.0.1:5555") 5555) := by decide +kernel
  ⟨hconnect, connect_disconnect_iff _ _ _ [] [] 0 hconnect rfl⟩

/-- A port with a leading zero is printed without it, and `disconnect` looks for it with the
zero. -/
theorem connect_leading_zero :
    connectService reachable (text "h:05555") = .ok (attemptAs (text "h:5555") 5555) ∧
      (disconnectSerial (text "h:05555")).bind (findTransport [(0, some (text "h:5555"))]) =
        none := by
  decide +kernel

end Agreement

end PaxAdb.Connect
