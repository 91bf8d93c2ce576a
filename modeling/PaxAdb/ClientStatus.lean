import PaxAdb.Decimal
import PaxAdb.ExactTransfer
import PaxAdb.SerialAddressing

/-!
# Replies of the server and how a client reads them

The server answers a request with `OKAY` or `FAIL`, a length in four hexadecimal digits and a
message. `adb_status` reads one status word, `adb_query` a status word and a message, `adb_command`
two status words. Before its request a client asks the server for its version, on a connection of
its own.
-/

namespace PaxAdb.Client

open Sockets (text cString unhexDigit TransportKind)
open Sockets.Server (hex4)
open Decimal (takeSign isSpace)
open Forward (connectBytes switchSocketTransport unhexDigit_hex)
open List UInt8

section Numbers

def skipHexMark : List Byte → List Byte
  | 0x30 :: c :: d :: s =>
      if (c = 0x78 ∨ c = 0x58) ∧ (unhexDigit d).isSome then d :: s else 0x30 :: c :: d :: s
  | s => s

def hexNumber (s : List Byte) : Option (Bool × ℕ) :=
  let (negative, s) := takeSign (s.dropWhile isSpace)
  let ds := ((skipHexMark s).map unhexDigit).takeWhile Option.isSome
  if ds = [] then none else some (negative, ds.foldl (fun n d => 16 * n + d.getD 0) 0)

/-- `strtoul(s, 0, 16)` stored in an `unsigned` -/
def strtoul (s : List Byte) : ℕ :=
  match hexNumber s with
  | none => 0
  | some (negative, n) =>
      (if negative ∧ n < 2 ^ 64 then 2 ^ 64 - n else min n (2 ^ 64 - 1)) % 2 ^ 32

/-- `%04x`, with at most `more` digits beyond the fourth -/
def printHex : ℕ → ℕ → List Byte
  | 0, n => hex4 n
  | more + 1, n =>
      if n < 16 ^ 4 then hex4 n else printHex more (n / 16) ++ (hex4 (n % 16)).drop 3

end Numbers

section Server

def sendMsgWithOkay (msg : List Byte) : List Byte :=
  let msglen := min msg.length 0xffff
  text "OKAY" ++ hex4 msglen ++ msg.take msglen

/-- The length of `reason` is kept in an `int`. A negative one is a `size_t` that no `write` takes:
it fails with `EFAULT`, and the header has gone out. -/
def sendfailmsg (reason : List Byte) : List Byte :=
  let len := min ((reason.length : ℤ).bmod (2 ^ 32)) 0xffff
  let header := (text "FAIL" ++ printHex 4 (len % 2 ^ 32).toNat).take 8
  if len < 0 then header else header ++ reason.take len.toNat

end Server

section Client

def adbStatus (reads : List ReadResult) : Except (List Byte) (List ReadResult) :=
  match readx 4 reads with
  | none => .error (text "protocol fault (no status)")
  | some (status, reads) =>
      if status = text "OKAY" then .ok reads
      else if status ≠ text "FAIL" then
        .error (text "protocol fault (status " ++
          (status.flatMap fun c => (hex4 c.toNat).drop 2 ++ text " ").dropLast ++ text "?!)")
      else
        match readx 4 reads with
        | none => .error (text "protocol fault (status len)")
        | some (len, reads) =>
            match readx (min (strtoul len) 255) reads with
            | none => .error (text "protocol fault (status read)")
            | some (error, _) => .error error

structure Connection where
  reads : List ReadResult
  writes : List WriteResult
  deriving DecidableEq, Repr

/-- What a client process meets: its connections for `host:version`, for `host:kill` and for the
service, its standard input and its options. -/
structure Env where
  version : Option Connection
  kill : Option Connection
  service : Option Connection
  stdin : List ReadResult
  /-- `launch_server` starts a server -/
  launchServer : Bool
  /-- `__adb_server_name` is set -/
  serverName : Bool
  serial : Option (List Byte)
  /-- `__adb_transport`; `none` is `kTransportHost` -/
  transport : Option TransportKind

def sendService (bytes : List Byte) (writes : List WriteResult) : Written (List WriteResult) :=
  (writex (bytes.take 4) writes).andThen (writex (bytes.drop 4))

def request (bytes : List Byte) (c : Connection) : Except (List Byte) Connection :=
  let w := sendService bytes c.writes
  if w.ok then
    match adbStatus c.reads with
    | .ok reads => .ok ⟨reads, w.rest⟩
    | .error e => .error e
  else .error (text "write failure during connection")

variable (env : Env)

def switchTransport (c : Connection) : Except (List Byte) Connection :=
  match env.serial, env.transport with
  | none, none => .ok c
  | serial, transport =>
      request (switchSocketTransport serial (transport.getD .kTransportAny)) c

def connectTo (service : List Byte) (connection : Option Connection) :
    Except (ℤ × List Byte) Connection :=
  match connectBytes service with
  | none => .error (-1, text "service name too long")
  | some bytes =>
      match connection with
      | none => .error (-2, text "cannot connect to daemon")
      | some c =>
          match if (text "host").isPrefixOf service then .ok c else switchTransport env c with
          | .error e => .error (-1, e)
          | .ok c =>
              match request bytes c with
              | .error e => .error (-1, e)
              | .ok c => .ok c

def ADB_SERVER_VERSION : ℤ := 32

/-- The version in the answer to `host:version`. The answer is read over its length in one buffer,
so the digits a short answer leaves are behind it. -/
def readVersion (c : Connection) : Option ℤ := do
  let (len, reads) ← readx 4 c.reads
  let n := strtoul len
  if 100 < n then none
  else
    let (answer, _) ← readx n reads
    let buf := cString (answer ++ (len ++ [0]).drop n)
    let (negative, version) ← hexNumber ((buf.dropWhile isSpace).take 4)
    some (if negative then -(version : ℤ) else version)

def startServer (e : List Byte) : Except (ℤ × List Byte) Unit :=
  if env.launchServer then .ok () else .error (-1, e)

def replaceServer (e : List Byte) : Except (ℤ × List Byte) Unit :=
  match connectTo env (text "host:kill") env.kill with
  | .error (_, e) => startServer env e
  | .ok _ => startServer env e

/-- The first part of `adb_connect`: a server of the right version is running, or is started. -/
def checkServer : Except (ℤ × List Byte) Unit :=
  match connectTo env (text "host:version") env.version with
  | .error (code, e) =>
      if code = -2 then if env.serverName then .error (-2, e) else startServer env e
      else if e = text "unknown host service" then replaceServer env e
      else .error (code, e)
  | .ok c =>
      match readVersion c with
      | none => .error (-1, [])
      | some version => if version = ADB_SERVER_VERSION then .ok () else replaceServer env []

/-- `adb_connect`: what can be read from the descriptor it returns. The command that only starts
the server gets 0. -/
def adbConnect (service : List Byte) : Except (ℤ × List Byte) (List ReadResult) :=
  match checkServer env with
  | .error e => .error e
  | .ok () =>
      if service = text "host:start-server" then .ok env.stdin
      else
        match connectTo env service env.service with
        | .error e => .error e
        | .ok c => .ok c.reads

def adbCommand (service : List Byte) : ℤ :=
  match adbConnect env service with
  | .error _ => -1
  | .ok reads =>
      match adbStatus reads with
      | .error _ => -1
      | .ok _ => 0

def adbQuery (service : List Byte) : Option (List Byte) :=
  match adbConnect env service with
  | .error _ => none
  | .ok reads => do
      let (len, reads) ← readx 4 reads
      let n := strtoul len
      if 0xffff ≤ n then none
      else
        let (answer, _) ← readx n reads
        some answer

end Client

section Numbers

theorem not_isSpace_hex {d : ℕ} (h : d < 16) :
    isSpace (ofNat (if d < 10 then 0x30 + d else 0x57 + d)) = false := by
  have hall : ∀ d < 16,
      isSpace (ofNat (if d < 10 then 0x30 + d else 0x57 + d)) = false := by decide
  exact hall d h

theorem takeSign_hex {d : ℕ} (h : d < 16) (s : List Byte) :
    takeSign (ofNat (if d < 10 then 0x30 + d else 0x57 + d) :: s) =
      (false, ofNat (if d < 10 then 0x30 + d else 0x57 + d) :: s) := by
  have hall : ∀ d < 16, ofNat (if d < 10 then 0x30 + d else 0x57 + d) ≠ 0x2d ∧
      ofNat (if d < 10 then 0x30 + d else 0x57 + d) ≠ 0x2b := by decide
  rw [takeSign, if_neg (hall d h).1, if_neg (hall d h).2]

theorem skipHexMark_hex (c : Byte) {d : ℕ} (h : d < 16) (s : List Byte) :
    skipHexMark (c :: ofNat (if d < 10 then 0x30 + d else 0x57 + d) :: s) =
      c :: ofNat (if d < 10 then 0x30 + d else 0x57 + d) :: s := by
  have hall : ∀ d < 16, ¬(ofNat (if d < 10 then 0x30 + d else 0x57 + d) = 0x78 ∨
      ofNat (if d < 10 then 0x30 + d else 0x57 + d) = 0x58) := by decide
  unfold skipHexMark
  split
  next heq =>
    obtain ⟨rfl, hd, rfl⟩ : c = 0x30 ∧ _ = _ ∧ _ = _ := by simpa using heq
    rw [if_neg, ← hd]
    rintro ⟨hx, -⟩
    exact hall d h (hd ▸ hx)
  next => rfl

theorem strtoul_hex4 {n : ℕ} (h : n < 16 ^ 4) : strtoul (hex4 n) = n := by
  have hnumber : hexNumber (hex4 n) = some (false, n) := by
    have h1 : n / 4096 % 16 < 16 := Nat.mod_lt _ (by decide)
    have h2 : n / 256 % 16 < 16 := Nat.mod_lt _ (by decide)
    have h3 : n / 16 % 16 < 16 := Nat.mod_lt _ (by decide)
    have h4 : n % 16 < 16 := Nat.mod_lt _ (by decide)
    simp only [hexNumber, hex4, dropWhile_cons, not_isSpace_hex h1, Bool.false_eq_true,
      if_false, takeSign_hex h1, skipHexMark_hex _ h2, map_cons, map_nil,
      unhexDigit_hex h1, unhexDigit_hex h2, unhexDigit_hex h3, unhexDigit_hex h4,
      takeWhile_cons, Option.isSome_some, if_true, takeWhile_nil, reduceCtorEq,
      foldl_cons, foldl_nil, Option.getD_some]
    congr 2
    omega
  rw [strtoul, hnumber]
  simp only [Bool.false_eq_true, false_and, if_false]
  omega

theorem printHex_of_lt (more : ℕ) {n : ℕ} (h : n < 16 ^ 4) : printHex more n = hex4 n := by
  cases more with
  | zero => rfl
  | succ more => rw [printHex, if_pos h]

theorem length_printHex (more n : ℕ) : 4 ≤ (printHex more n).length := by
  induction more generalizing n with
  | zero => exact le_rfl
  | succ more ih =>
    rw [printHex]
    split
    next => exact le_rfl
    next =>
      rw [length_append]
      exact (ih (n / 16)).trans (Nat.le_add_right _ _)

theorem take_printHex (more : ℕ) {n : ℕ} (hge : 16 ^ (3 + more) ≤ n) :
    (printHex more n).take 4 = hex4 (n / 16 ^ more) := by
  induction more generalizing n with
  | zero =>
    rw [pow_zero, Nat.div_one]
    rfl
  | succ more ih =>
    have hfour : ¬ n < 16 ^ 4 := by
      have hpow : 16 ^ 4 ≤ 16 ^ (3 + (more + 1)) := Nat.pow_le_pow_right (by decide) (by omega)
      exact not_lt.mpr (hpow.trans hge)
    have hnext : 16 ^ (3 + more) ≤ n / 16 := by
      rw [Nat.le_div_iff_mul_le (by decide), ← pow_succ]
      exact hge
    rw [printHex, if_neg hfour, take_append_of_le_length (length_printHex _ _), ih hnext,
      Nat.div_div_eq_div_mul, pow_succ']

end Numbers

section Replies

variable {reads : List ReadResult} {tail : List Byte}

theorem adbStatus_okay (h : Undisturbed reads) (harr : arrived reads = text "OKAY" ++ tail) :
    ∃ rest, adbStatus reads = .ok rest ∧ Undisturbed rest ∧ arrived rest = tail := by
  obtain ⟨rest, hread, hrest, htail⟩ := readx_undisturbed (text "OKAY") tail h harr
  have hfour : readx 4 reads = some (text "OKAY", rest) := hread
  refine ⟨rest, ?_, hrest, htail⟩
  simp only [adbStatus, hfour, if_true]

theorem adbStatus_ok {rest : List ReadResult} (h : adbStatus reads = .ok rest) :
    arrived reads = text "OKAY" ++ arrived rest := by
  rw [adbStatus] at h
  split at h
  next => cases h
  next status left hread =>
    split_ifs at h with hokay
    · cases h
      rw [(readx_some 4 reads hread).2, hokay]
    · split at h
      next => cases h
      next => split at h <;> cases h

theorem adbStatus_fail {n : ℕ} {body : List Byte} (h : Undisturbed reads) (hn : n < 16 ^ 4)
    (harr : arrived reads = text "FAIL" ++ (hex4 n ++ body)) :
    ∃ rest, Undisturbed rest ∧ arrived rest = body ∧
      adbStatus reads = match readx (min n 255) rest with
        | none => .error (text "protocol fault (status read)")
        | some (error, _) => .error error := by
  obtain ⟨rest, hread, hrest, htail⟩ := readx_undisturbed (text "FAIL") _ h harr
  obtain ⟨rest', hread', hrest', htail'⟩ := readx_undisturbed (hex4 n) _ hrest htail
  have hstatus : readx 4 reads = some (text "FAIL", rest) := hread
  have hfour : readx 4 rest = some (hex4 n, rest') := hread'
  have hokay : text "FAIL" ≠ text "OKAY" := by decide
  refine ⟨rest', hrest', htail', ?_⟩
  simp only [adbStatus, hstatus, if_neg hokay, ne_eq, not_true_eq_false, if_false, hfour,
    strtoul_hex4 hn]

end Replies

section Failures

variable (m : List Byte)

theorem sendfailmsg_of_lt (h : m.length % 2 ^ 32 < 2 ^ 31) :
    sendfailmsg m = text "FAIL" ++
      (hex4 (min (m.length % 2 ^ 32) 0xffff) ++ m.take (min (m.length % 2 ^ 32) 0xffff)) := by
  have hlen : min ((m.length : ℤ).bmod (2 ^ 32)) 0xffff =
      (min (m.length % 2 ^ 32) 0xffff : ℕ) := by
    rw [Int.bmod_def]
    omega
  have hsmall : min (m.length % 2 ^ 32) 0xffff < 16 ^ 4 :=
    lt_of_le_of_lt (min_le_right _ _) (by decide)
  unfold sendfailmsg
  rw [hlen]
  generalize min (m.length % 2 ^ 32) 0xffff = len at hsmall
  have hunsigned : ((len : ℤ) % 2 ^ 32).toNat = len := by omega
  have hheader : (text "FAIL" ++ hex4 len).take 8 = text "FAIL" ++ hex4 len := rfl
  have hsign : ¬(len : ℤ) < 0 := not_lt.mpr (Int.natCast_nonneg len)
  simp only [hunsigned, printHex_of_lt 4 hsmall, hheader, Int.toNat_natCast, if_neg hsign,
    append_assoc]

theorem sendfailmsg_of_ge (h : 2 ^ 31 ≤ m.length % 2 ^ 32) :
    sendfailmsg m = text "FAIL" ++ (hex4 (m.length % 2 ^ 32 / 16 ^ 4) ++ []) := by
  have hlen : min ((m.length : ℤ).bmod (2 ^ 32)) 0xffff =
      ((m.length % 2 ^ 32 : ℕ) : ℤ) - 2 ^ 32 := by
    rw [Int.bmod_def]
    omega
  have hlt : m.length % 2 ^ 32 < 2 ^ 32 := Nat.mod_lt _ (by decide)
  unfold sendfailmsg
  rw [hlen]
  generalize m.length % 2 ^ 32 = len at h hlt
  have hunsigned : (((len : ℤ) - 2 ^ 32) % 2 ^ 32).toNat = len := by omega
  have hheader : (text "FAIL" ++ printHex 4 len).take 8 =
      text "FAIL" ++ (printHex 4 len).take 4 := rfl
  have hge : 16 ^ (3 + 4) ≤ len := le_trans (by decide) h
  have hsign : (len : ℤ) - 2 ^ 32 < 0 := by omega
  simp only [hunsigned, hheader, take_printHex 4 hge, append_nil, if_pos hsign]

variable {reads : List ReadResult} {m}

theorem adbStatus_sendfailmsg (h : Undisturbed reads) (harr : arrived reads = sendfailmsg m)
    (hsign : m.length % 2 ^ 32 < 2 ^ 31) :
    adbStatus reads = .error (m.take (min (m.length % 2 ^ 32) 255)) := by
  have hmod := Nat.mod_le m.length (2 ^ 32)
  rw [sendfailmsg_of_lt m hsign] at harr
  have hsmall : min (m.length % 2 ^ 32) 0xffff < 16 ^ 4 := by omega
  obtain ⟨rest, hrest, hbody, hstatus⟩ := adbStatus_fail h hsmall harr
  have htold : min (min (m.length % 2 ^ 32) 0xffff) 255 = min (m.length % 2 ^ 32) 255 := by omega
  have hfirst : (m.take (min (m.length % 2 ^ 32) 0xffff)).take (min (m.length % 2 ^ 32) 255) =
      m.take (min (m.length % 2 ^ 32) 255) := by
    rw [take_take, min_eq_left (by omega)]
  rw [← take_append_drop (min (m.length % 2 ^ 32) 255) (m.take _), hfirst] at hbody
  obtain ⟨rest', hread, -, -⟩ := readx_undisturbed _ _ hrest hbody
  rw [length_take, min_eq_left (by omega)] at hread
  rw [hstatus, htold, hread]

/-- The client waits for a text of which the server sends nothing. -/
theorem adbStatus_sendfailmsg_negative (h : Undisturbed reads)
    (harr : arrived reads = sendfailmsg m) (hsign : 2 ^ 31 ≤ m.length % 2 ^ 32) :
    adbStatus reads = .error (text "protocol fault (status read)") := by
  rw [sendfailmsg_of_ge m hsign] at harr
  have hsmall : m.length % 2 ^ 32 / 16 ^ 4 < 16 ^ 4 := by omega
  obtain ⟨rest, -, hbody, hstatus⟩ := adbStatus_fail h hsmall harr
  rw [hstatus]
  cases hread : readx (min (m.length % 2 ^ 32 / 16 ^ 4) 255) rest with
  | none => rfl
  | some x =>
    obtain ⟨hlen, harr⟩ := readx_some _ _ hread
    rw [hbody] at harr
    rw [(append_eq_nil_iff.mp harr.symm).1] at hlen
    simp only [length_nil] at hlen
    omega

theorem sendfailmsg_ne_nil : sendfailmsg m ≠ [] := by
  by_cases hsign : m.length % 2 ^ 32 < 2 ^ 31
  · rw [sendfailmsg_of_lt m hsign]
    exact cons_ne_nil _ _
  · rw [sendfailmsg_of_ge m (not_lt.mp hsign)]
    exact cons_ne_nil _ _

end Failures

section Sessions

/-- A server of the right version is running and has been sent a request for one of its own
services; `c` is the connection with what comes back on it. -/
structure Session (env : Env) (service : List Byte) (c : Connection) : Prop where
  checked : checkServer env = .ok ()
  host : (text "host").isPrefixOf service
  short : service.length ≤ 1024
  served : service ≠ text "host:start-server"
  connected : env.service = some c
  sent : (sendService (hex4 service.length ++ service) c.writes).ok = true
  undisturbed : Undisturbed c.reads

variable {env : Env} {service : List Byte} {c : Connection}

theorem Session.adbConnect_eq (h : Session env service c) :
    adbConnect env service =
      match adbStatus c.reads with
      | .error e => .error (-1, e)
      | .ok reads => .ok reads := by
  have hpos : 1 ≤ service.length := by
    have hle := (List.isPrefixOf_iff_prefix.mp h.host).length_le
    exact le_trans (by decide) hle
  have hbytes := Forward.connectBytes_of_length hpos h.short
  simp only [adbConnect, h.checked, if_neg h.served, connectTo, hbytes, h.connected, h.host,
    if_true, request, h.sent]
  cases adbStatus c.reads <;> rfl

/-- `adb_query` has the message the server sends, or fails when its length says that it may have
been cut. -/
theorem Session.adbQuery_eq (h : Session env service c) {m : List Byte}
    (harr : arrived c.reads = sendMsgWithOkay m) :
    adbQuery env service = if m.length < 0xffff then some m else none := by
  rw [sendMsgWithOkay, append_assoc] at harr
  obtain ⟨rest, hstatus, hrest, htail⟩ := adbStatus_okay h.undisturbed harr
  obtain ⟨rest', hread, hrest', htail'⟩ := readx_undisturbed _ _ hrest htail
  have hfour : readx 4 rest = some (hex4 (min m.length 0xffff), rest') := hread
  have hnum : strtoul (hex4 (min m.length 0xffff)) = min m.length 0xffff :=
    strtoul_hex4 (lt_of_le_of_lt (min_le_right _ _) (by decide))
  simp only [adbQuery, h.adbConnect_eq, hstatus, hfour, Option.bind_eq_bind, Option.bind_some, hnum]
  by_cases hlt : m.length < 0xffff
  · have hlen : min m.length 0xffff = m.length := min_eq_left hlt.le
    rw [hlen, take_length] at htail'
    obtain ⟨rest'', hanswer, -, -⟩ :=
      readx_undisturbed m [] hrest' (htail'.trans (append_nil m).symm)
    rw [hlen, if_neg (not_le.mpr hlt), hanswer, if_pos hlt]
    rfl
  · rw [if_neg hlt, if_pos]
    exact le_min (not_lt.mp hlt) le_rfl

theorem Session.adbCommand_iff (h : Session env service c) :
    adbCommand env service = 0 ↔ text "OKAYOKAY" <+: arrived c.reads := by
  have hwords : text "OKAYOKAY" = text "OKAY" ++ text "OKAY" := rfl
  rw [adbCommand, h.adbConnect_eq]
  constructor
  · intro hzero
    cases hfirst : adbStatus c.reads with
    | error e =>
      rw [hfirst] at hzero
      cases hzero
    | ok reads =>
      rw [hfirst] at hzero
      cases hsecond : adbStatus reads with
      | error e =>
        simp only [hsecond] at hzero
        cases hzero
      | ok rest =>
        refine ⟨arrived rest, ?_⟩
        rw [adbStatus_ok hfirst, adbStatus_ok hsecond, hwords, append_assoc]
  · rintro ⟨tail, htail⟩
    rw [hwords, append_assoc] at htail
    obtain ⟨reads, hfirst, hreads, harr⟩ := adbStatus_okay h.undisturbed htail.symm
    obtain ⟨rest, hsecond, -, -⟩ := adbStatus_okay hreads harr
    simp only [hfirst, hsecond]

end Sessions

section Framing

/-- A message sent behind `OKAY` is what `adb_query` returns. -/
def QueryExact (m : List Byte) : Prop :=
  ∀ env service c, Session env service c → arrived c.reads = sendMsgWithOkay m →
    adbQuery env service = if m.length < 0xffff then some m else none

/-- A message sent behind `FAIL` is in `__adb_error` as far as there is room. -/
def StatusExact (m : List Byte) : Prop :=
  ∀ reads, Undisturbed reads → arrived reads = sendfailmsg m → adbStatus reads = .error (m.take 255)

/-- `adb_command` returns 0 when it is sent `OKAY` twice and in no other case. -/
def CommandExact : Prop :=
  ∀ env service c, Session env service c →
    (adbCommand env service = 0 ↔ text "OKAYOKAY" <+: arrived c.reads)

theorem undisturbed_single {bytes : List Byte} (h : bytes ≠ []) :
    Undisturbed [.data bytes] := by
  obtain ⟨b, rest, rfl⟩ := exists_cons_of_ne_nil h
  intro r hr
  exact .inr ⟨b, rest, mem_singleton.mp hr⟩

theorem statusExact_iff (m : List Byte) :
    StatusExact m ↔
      m.length < 2 ^ 31 ∨ 255 ≤ m.length % 2 ^ 32 ∧ m.length % 2 ^ 32 < 2 ^ 31 := by
  have hund := undisturbed_single (sendfailmsg_ne_nil (m := m))
  have harr : arrived [.data (sendfailmsg m)] = sendfailmsg m := append_nil _
  by_cases hsign : m.length % 2 ^ 32 < 2 ^ 31
  · have htake : m.take (min (m.length % 2 ^ 32) 255) = m.take 255 ↔
        m.length < 2 ^ 31 ∨ 255 ≤ m.length % 2 ^ 32 ∧ m.length % 2 ^ 32 < 2 ^ 31 := by
      rw [take_eq_take_iff]
      omega
    rw [← htake]
    constructor
    · intro hexact
      have hread := adbStatus_sendfailmsg hund harr hsign
      rw [hexact _ hund harr] at hread
      exact (Except.error.inj hread).symm
    · intro heq reads hreads hsent
      rw [adbStatus_sendfailmsg hreads hsent hsign, heq]
  · have hlong := Nat.mod_le m.length (2 ^ 32)
    refine iff_of_false ?_ (by omega)
    intro hexact
    have hread := adbStatus_sendfailmsg_negative hund harr (not_lt.mp hsign)
    rw [hexact _ hund harr] at hread
    have hcount := congrArg length (Except.error.inj hread)
    have htext : (text "protocol fault (status read)").length = 28 := rfl
    rw [length_take, htext] at hcount
    omega

theorem adbStatus_lost {m : List Byte} (h : m.length = 2 ^ 32) :
    adbStatus [.data (sendfailmsg m)] = .error [] := by
  have hrem : m.length % 2 ^ 32 = 0 := by omega
  rw [adbStatus_sendfailmsg (undisturbed_single sendfailmsg_ne_nil) (append_nil _)
    (by rw [hrem]; decide), hrem]
  rfl

def running (reads : List ReadResult) : Env :=
  { version := some ⟨[.data (text "OKAY00040020")], [.count 3, .count 11]⟩, kill := none,
    service := some ⟨reads, [.count 3, .count 1023]⟩, stdin := [], launchServer := false,
    serverName := false, serial := none, transport := some .kTransportAny }

theorem session_running {reads : List ReadResult} (h : Undisturbed reads) :
    Session (running reads) (text "host:devices") ⟨reads, [.count 3, .count 1023]⟩ where
  checked := rfl
  host := by decide
  short := by decide
  served := by decide
  connected := rfl
  sent := rfl
  undisturbed := h

example : adbQuery (running [.data (text "OKA"), .eintr, .data (text "Y0003"), .data (text "abc")])
    (text "host:devices") = some (text "abc") := by decide

end Framing

end PaxAdb.Client
