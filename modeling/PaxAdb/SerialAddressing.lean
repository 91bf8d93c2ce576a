import PaxAdb.ForwardRequest

/-!
# Addressing a device by its serial number

A client names a device in three ways: `format_host_command` puts the serial number into a
`host-serial:` request, the `forward` command into `host_prefix`, and `switch_socket_transport` into
a `host:transport:` request. The server finds the end of the serial number with `skip_host_serial`.
What becomes of the specs of a `forward` request is the last section.
-/

namespace PaxAdb.Forward

open Sockets (text ASocket TransportKind HostRequest parseHostRequest skipHostSerial smartRequest
  smartSocketCollect serialPrefixes)
open List Option

section Client

def formatHostCommand (buflen : ℕ) (command : List Byte) (ttype : TransportKind)
    (serial : Option (List Byte)) : List Byte :=
  match serial with
  | some serial => snprintf buflen (text "host-serial:" ++ serial ++ text ":" ++ command)
  | none =>
      let host := match ttype with
        | .kTransportUsb => text "host-usb"
        | .kTransportLocal => text "host-local"
        | .kTransportAny => text "host"
      snprintf buflen (host ++ text ":" ++ command)

def switchService (serial : Option (List Byte)) (transport : TransportKind) : List Byte :=
  match serial with
  | some serial => snprintf 64 (text "host:transport:" ++ serial)
  | none =>
      let type := match transport with
        | .kTransportUsb => text "transport-usb"
        | .kTransportLocal => text "transport-local"
        | .kTransportAny => text "transport-any"
      snprintf 64 (text "host:" ++ type)

def switchSocketTransport (serial : Option (List Byte)) (transport : TransportKind) : List Byte :=
  let service := switchService serial transport
  Sockets.Server.hex4 service.length ++ service

end Client

section Server

def received (s : ASocket) (p : List Byte) : Option HostRequest :=
  (smartRequest s p).bind parseHostRequest

def transportRequest (r : HostRequest) : TransportKind × Option (List Byte) :=
  if (text "transport-usb").isPrefixOf r.service then (.kTransportUsb, r.serial)
  else if (text "transport-local").isPrefixOf r.service then (.kTransportLocal, r.serial)
  else if (text "transport-any").isPrefixOf r.service then (.kTransportAny, r.serial)
  else if (text "transport:").isPrefixOf r.service then
    (.kTransportAny, some (r.service.drop (text "transport:").length))
  else (.kTransportAny, r.serial)

end Server

section SkipHostSerial

/-- The serial numbers whose end `skip_host_serial` finds. -/
def Addressable (serial : List Byte) : Prop :=
  (∃ word ∈ serialPrefixes, ∃ rest, serial = word ++ rest ∧ 0x3a ∉ rest) ∨
    (0x3a ∉ serial ∧ serial ++ text ":" ∉ serialPrefixes) ∨
    ∃ host port, serial = host ++ 0x3a :: port ∧ 0x3a ∉ host ∧ port ≠ [] ∧
      ∀ c ∈ port, 0x30 ≤ c ∧ c ≤ 0x39

variable {stem rest service serial : List Byte}

theorem find_serialPrefixes_some (hstem : 0x3a ∉ stem) (hword : stem ++ text ":" ∈ serialPrefixes)
    (rest : List Byte) :
    serialPrefixes.find? (·.isPrefixOf (stem ++ 0x3a :: rest)) = some (stem ++ text ":") := by
  have hprefix : stem ++ text ":" <+: stem ++ 0x3a :: rest :=
    (prefix_append_right_inj stem).mpr ⟨rest, rfl⟩
  cases hfind : serialPrefixes.find? (·.isPrefixOf (stem ++ 0x3a :: rest)) with
  | none =>
    rw [find?_eq_none] at hfind
    exact absurd (List.isPrefixOf_iff_prefix.mpr hprefix) (hfind _ hword)
  | some word =>
    have hword' := find?_some hfind
    rw [List.isPrefixOf_iff_prefix] at hword'
    rw [serialPrefixes_begins hstem (mem_of_find?_eq_some hfind) hword']

theorem skipHostSerial_word (hstem : 0x3a ∉ stem) (hword : stem ++ text ":" ∈ serialPrefixes)
    (rest : List Byte) :
    skipHostSerial (stem ++ 0x3a :: rest) =
      (rest.findIdx? (· = 0x3a)).map (· + (stem.length + 1)) := by
  have hlen : (stem ++ text ":").length = stem.length + 1 := by
    rw [length_append]
    rfl
  simp only [skipHostSerial, find_serialPrefixes_some hstem hword, hlen, drop_append_cons]

theorem takeWhile_digits_append (h : ∀ c ∈ rest, 0x30 ≤ c ∧ c ≤ 0x39) (service : List Byte) :
    (rest ++ 0x3a :: service).takeWhile (fun c => 0x30 ≤ c ∧ c ≤ 0x39) = rest := by
  rw [takeWhile_append_of_pos (by simpa using h), takeWhile_cons_of_neg (by decide), append_nil]

theorem digits_of_length (rest service : List Byte)
    (h : ((rest ++ 0x3a :: service).takeWhile (fun c => 0x30 ≤ c ∧ c ≤ 0x39)).length =
      rest.length) : ∀ c ∈ rest, 0x30 ≤ c ∧ c ≤ 0x39 := by
  have hprefix := takeWhile_prefix (fun c : Byte => 0x30 ≤ c ∧ c ≤ 0x39)
    (l := rest ++ 0x3a :: service)
  have hrest : (rest ++ 0x3a :: service).takeWhile (fun c => 0x30 ≤ c ∧ c ≤ 0x39) = rest :=
    (prefix_of_prefix_length_le hprefix (prefix_append rest _) h.le).eq_of_length h
  intro c hc
  rw [← hrest] at hc
  simpa using mem_takeWhile_imp hc

/-- Without one of the words, a colon belongs to the serial number only when digits and another
colon follow it. -/
theorem skipHostSerial_colon_iff (hstem : 0x3a ∉ stem)
    (hword : stem ++ text ":" ∉ serialPrefixes) (rest service : List Byte) :
    skipHostSerial (stem ++ 0x3a :: (rest ++ 0x3a :: service)) =
        some (stem ++ 0x3a :: rest).length ↔
      rest ≠ [] ∧ ∀ c ∈ rest, 0x30 ≤ c ∧ c ≤ 0x39 := by
  have hlen : (stem ++ 0x3a :: rest).length = stem.length + 1 + rest.length := by
    rw [length_append, length_cons]
    omega
  simp only [skipHostSerial, find_serialPrefixes_none hstem hword, findIdx_append hstem,
    map_some, drop_append_cons, hlen, some.injEq]
  constructor
  · intro hend
    split at hend
    next hdigits =>
      have hall := digits_of_length rest service (by omega)
      rw [takeWhile_digits_append hall] at hdigits
      exact ⟨hdigits.1, hall⟩
    next => omega
  · rintro ⟨hne, hall⟩
    have hcolon : (stem ++ 0x3a :: (rest ++ 0x3a :: service))[stem.length + 1 + rest.length]? =
        some 0x3a := by
      rw [← hlen, ← cons_append, ← append_assoc, getElem?_append_right le_rfl, Nat.sub_self]
      rfl
    rw [takeWhile_digits_append hall, if_pos ⟨hne, hcolon⟩]

theorem first_colon_inj {stem' rest' : List Byte} (h : 0x3a ∉ stem) (h' : 0x3a ∉ stem')
    (heq : stem ++ 0x3a :: rest = stem' ++ 0x3a :: rest') : stem = stem' ∧ rest = rest' := by
  have hstem : stem = stem' := by
    rw [← takeWhile_append h rest, heq, takeWhile_append h']
  have hrest : rest = rest' := by
    rw [← afterChar_append h rest, heq, afterChar_append h']
  exact ⟨hstem, hrest⟩

theorem colon_mem_of_word {word : List Byte} (h : word ∈ serialPrefixes) : 0x3a ∈ word := by
  obtain ⟨stem, rfl, _⟩ := serialPrefixes_stem h
  exact mem_append_right _ mem_cons_self

theorem addressable_plain_iff (hcolon : 0x3a ∉ serial) :
    Addressable serial ↔ serial ++ text ":" ∉ serialPrefixes := by
  constructor
  · rintro (⟨word, hmem, rest, rfl, -⟩ | ⟨-, hword⟩ | ⟨host, port, rfl, -⟩)
    · exact absurd (mem_append_left _ (colon_mem_of_word hmem)) hcolon
    · exact hword
    · exact absurd (mem_append_right _ mem_cons_self) hcolon
  · exact fun hword => Or.inr (Or.inl ⟨hcolon, hword⟩)

theorem addressable_word_iff (hstem : 0x3a ∉ stem) (hword : stem ++ text ":" ∈ serialPrefixes) :
    Addressable (stem ++ 0x3a :: rest) ↔ 0x3a ∉ rest := by
  constructor
  · rintro (⟨word, hmem, rest', heq, hrest'⟩ | ⟨hcolon, -⟩ | ⟨host, port, heq, hhost, -, hdigits⟩)
    · obtain ⟨stem', rfl, hstem'⟩ := serialPrefixes_stem hmem
      rw [append_assoc] at heq
      rwa [(first_colon_inj hstem hstem' heq).2]
    · exact absurd (mem_append_right _ mem_cons_self) hcolon
    · rw [(first_colon_inj hstem hhost heq).2]
      exact fun hmem => absurd (hdigits _ hmem) (by decide)
  · refine fun hrest => Or.inl ⟨_, hword, rest, ?_, hrest⟩
    rw [append_assoc]
    rfl

theorem addressable_port_iff (hstem : 0x3a ∉ stem) (hword : stem ++ text ":" ∉ serialPrefixes) :
    Addressable (stem ++ 0x3a :: rest) ↔ rest ≠ [] ∧ ∀ c ∈ rest, 0x30 ≤ c ∧ c ≤ 0x39 := by
  constructor
  · rintro (⟨word, hmem, rest', heq, -⟩ | ⟨hcolon, -⟩ | ⟨host, port, heq, hhost, hne, hdigits⟩)
    · have hprefix : word <+: stem ++ 0x3a :: rest := ⟨rest', heq.symm⟩
      rw [serialPrefixes_begins hstem hmem hprefix] at hmem
      exact absurd hmem hword
    · exact absurd (mem_append_right _ mem_cons_self) hcolon
    · obtain ⟨rfl, rfl⟩ := first_colon_inj hstem hhost heq
      exact ⟨hne, hdigits⟩
  · rintro ⟨hne, hdigits⟩
    exact Or.inr (Or.inr ⟨stem, rest, rfl, hstem, hne, hdigits⟩)

/-- In front of a command that does not start with a digit, the end of a serial number is found
exactly when it is addressable. -/
theorem skipHostSerial_iff (serial : List Byte)
    (hdigit : ∀ c ∈ service.head?, ¬(0x30 ≤ c ∧ c ≤ 0x39)) :
    skipHostSerial (serial ++ 0x3a :: service) = some serial.length ↔ Addressable serial := by
  by_cases hcolon : 0x3a ∈ serial
  · obtain ⟨stem, rest, rfl, hstem⟩ := eq_append_cons_of_mem hcolon
    rw [append_assoc, cons_append]
    by_cases hword : stem ++ text ":" ∈ serialPrefixes
    · rw [addressable_word_iff hstem hword, skipHostSerial_word hstem hword]
      by_cases hrest : 0x3a ∈ rest
      · -- the serial number ends at its own second colon
        obtain ⟨front, back, rfl, hfront⟩ := eq_append_cons_of_mem hrest
        refine iff_of_false ?_ (not_not.mpr hrest)
        rw [append_assoc, cons_append, findIdx_append hfront]
        simp only [map_some, some.injEq, length_append, length_cons]
        omega
      · refine iff_of_true ?_ hrest
        rw [findIdx_append hrest]
        simp only [map_some, some.injEq, length_append, length_cons]
        omega
    · rw [addressable_port_iff hstem hword, skipHostSerial_colon_iff hstem hword]
  · rw [addressable_plain_iff hcolon]
    by_cases hword : serial ++ text ":" ∈ serialPrefixes
    · refine iff_of_false ?_ (not_not.mpr hword)
      rw [skipHostSerial_word hcolon hword, map_eq_some_iff]
      rintro ⟨i, -, hi⟩
      omega
    · exact iff_of_true (skipHostSerial_plain hcolon hword hdigit) hword

end SkipHostSerial

section HostSerial

/-- A serial number as devices have it: a name without a colon, or a host with a port. -/
structure DeviceSerial where
  name : List Byte
  noNul : 0 ∉ name
  shape : (name ≠ [] ∧ 0x3a ∉ name) ∨
    ∃ host port, name = host ++ 0x3a :: port ∧ 0x3a ∉ host ∧ port ≠ [] ∧
      ∀ c ∈ port, 0x30 ≤ c ∧ c ≤ 0x39

/-- A command for the server that does not start with a digit. -/
structure HostCommand where
  name : List Byte
  noNul : 0 ∉ name
  noDigit : ∀ c ∈ name.head?, ¬(0x30 ≤ c ∧ c ≤ 0x39)

variable {serial service : List Byte}

theorem parseHostRequest_serial (x : List Byte) :
    parseHostRequest (text "host-serial:" ++ x) =
      match skipHostSerial x with
      | some i => some ⟨x.drop (i + 1), .kTransportAny, some (x.take i)⟩
      | none => some ⟨x, .kTransportAny, none⟩ := rfl

theorem parseHostRequest_of_addressable (h : Addressable serial)
    (hdigit : ∀ c ∈ service.head?, ¬(0x30 ≤ c ∧ c ≤ 0x39)) :
    parseHostRequest (text "host-serial:" ++ (serial ++ 0x3a :: service)) =
      some ⟨service, .kTransportAny, some serial⟩ := by
  rw [parseHostRequest_serial, (skipHostSerial_iff serial hdigit).mpr h]
  simp only [drop_append_cons, take_left]

/-- The end of any other serial number is missed, so the request is for another device. -/
theorem parseHostRequest_of_not_addressable (h : ¬Addressable serial)
    (hdigit : ∀ c ∈ service.head?, ¬(0x30 ≤ c ∧ c ≤ 0x39)) :
    ∃ r, parseHostRequest (text "host-serial:" ++ (serial ++ 0x3a :: service)) = some r ∧
      r.serial ≠ some serial := by
  rw [← skipHostSerial_iff serial hdigit] at h
  rw [parseHostRequest_serial]
  cases hskip : skipHostSerial (serial ++ 0x3a :: service) with
  | none => exact ⟨_, rfl, nofun⟩
  | some i =>
    refine ⟨_, rfl, fun hserial => ?_⟩
    have hlen := congrArg length (some.inj hserial)
    rw [length_take, length_append, length_cons] at hlen
    have hi : i = serial.length := by omega
    rw [hskip, hi] at h
    exact h rfl

def serialWords : List (List Byte) := [text "usb", text "product", text "model", text "device"]

theorem mem_serialWords_iff : serial ++ text ":" ∈ serialPrefixes ↔ serial ∈ serialWords := by
  rw [show serialPrefixes = serialWords.map (· ++ text ":") from rfl,
    List.mem_map_of_injective (List.append_left_injective _)]

/-- Among the serial numbers of devices only the four words themselves are not addressable. -/
theorem DeviceSerial.addressable_iff (serial : DeviceSerial) :
    Addressable serial.name ↔ serial.name ∉ serialWords := by
  rw [← mem_serialWords_iff]
  rcases serial.shape with ⟨-, hcolon⟩ | ⟨host, port, hname, hhost, hne, hdigits⟩
  · exact addressable_plain_iff hcolon
  · rw [hname]
    refine iff_of_true (Or.inr (Or.inr ⟨host, port, rfl, hhost, hne, hdigits⟩)) fun hmem => ?_
    obtain ⟨stem, hstem, hcolon⟩ := serialPrefixes_stem hmem
    rw [append_cancel_right hstem.symm] at hcolon
    exact hcolon (mem_append_right _ mem_cons_self)

/-- The server takes a `host-serial:` request apart into the serial number and the command it was
made of, unless the serial number is one of the words `usb`, `product`, `model` and `device`. -/
theorem host_serial_round_trip_iff (serial : DeviceSerial) (command : HostCommand)
    (ttype : TransportKind)
    (hfits : (text "host-serial:" ++ serial.name ++ text ":" ++ command.name).length ≤ 1024) :
    ∃ bytes, connectBytes (formatHostCommand 4096 command.name ttype (some serial.name)) =
        some bytes ∧
      ∀ s p, smartSocketCollect s p = some bytes →
        (received s p = some ⟨command.name, .kTransportAny, some serial.name⟩ ↔
          serial.name ∉ serialWords) := by
  have hformat : formatHostCommand 4096 command.name ttype (some serial.name) =
      text "host-serial:" ++ (serial.name ++ 0x3a :: command.name) := by
    rw [formatHostCommand, snprintf_of_lt (by omega), append_assoc, append_assoc]
    rfl
  have hlong : 1 ≤ (text "host-serial:" ++ (serial.name ++ 0x3a :: command.name)).length := by
    rw [length_append]
    exact Nat.le_add_right_of_le (by decide)
  have hsent := connectBytes_of_length hlong
    (by rwa [append_assoc, append_assoc] at hfits)
  have hnul : 0 ∉ text "host-serial:" ++ (serial.name ++ 0x3a :: command.name) := by
    simp only [mem_append, mem_cons, not_or]
    exact ⟨by decide, serial.noNul, by decide, command.noNul⟩
  rw [hformat]
  refine ⟨_, hsent, fun s p hcollect => ?_⟩
  rw [received, smartRequest_connectBytes hnul hcollect hsent, bind_some, ← serial.addressable_iff]
  constructor
  · intro hround
    by_contra hnot
    obtain ⟨r, hr, hserial⟩ := parseHostRequest_of_not_addressable hnot command.noDigit
    rw [hr, some.injEq] at hround
    rw [hround] at hserial
    exact hserial rfl
  · exact fun haddr => parseHostRequest_of_addressable haddr command.noDigit

theorem host_serial_round_trip_port :
    ∃ bytes, connectBytes (formatHostCommand 4096 (text "get-state") .kTransportAny
        (some (text "usb:5555"))) = some bytes ∧
      ∀ s p, smartSocketCollect s p = some bytes →
        (received s p = some ⟨text "get-state", .kTransportAny, some (text "usb:5555")⟩ ↔
          text "usb:5555" ∉ serialWords) :=
  host_serial_round_trip_iff
    ⟨text "usb:5555", by decide, Or.inr ⟨text "usb", text "5555", rfl, by decide, by decide,
      by decide +kernel⟩⟩
    ⟨text "get-state", by decide, by rintro c ⟨⟩; decide⟩ .kTransportAny (by decide)

/-- For a device with the serial number `usb` the server gets a request without one. -/
theorem host_serial_usb :
    (connectBytes (formatHostCommand 4096 (text "get-state") .kTransportAny
      (some (text "usb")))).bind (received (newSmart 0)) =
      some ⟨text "usb:get-state", .kTransportAny, none⟩ := by
  decide +kernel

end HostSerial

section Selection

def CommandResult.request : CommandResult → Option (List Byte)
  | .usage => none
  | .query request => some request
  | .command request => some request

variable {serial : List Byte}

theorem snprintf_take (front : List Byte) (n : ℕ) (rest : List Byte) :
    snprintf (front.length + n + 1) (front ++ rest) = front ++ rest.take n := by
  rw [snprintf_eq, Nat.add_sub_cancel, take_length_add_append]

theorem switchService_serial (serial : List Byte) (transport : TransportKind) :
    switchService (some serial) transport = text "host:transport:" ++ serial.take 48 :=
  snprintf_take (text "host:transport:") 48 serial

theorem serialPrefix_eq (serial : List Byte) :
    serialPrefix serial = text "host-serial:" ++ serial.take 51 :=
  snprintf_take (text "host-serial:") 51 serial

theorem received_switch (hnul : 0 ∉ serial) (transport : TransportKind) {s : ASocket}
    {p : List Byte}
    (hcollect : smartSocketCollect s p = some (switchSocketTransport (some serial) transport)) :
    received s p = some ⟨text "transport:" ++ serial.take 48, .kTransportAny, none⟩ := by
  have hlen : (switchService (some serial) transport).length = 15 + min 48 serial.length := by
    rw [switchService_serial, length_append, length_take]
    rfl
  have hsent := connectBytes_of_length
    (show 1 ≤ (switchService (some serial) transport).length by omega)
    (by omega)
  have hservice : 0 ∉ switchService (some serial) transport := by
    rw [switchService_serial, mem_append, not_or]
    exact ⟨by decide, fun hmem => hnul (mem_of_mem_take hmem)⟩
  rw [received, smartRequest_connectBytes hservice hcollect hsent, switchService_serial]
  rfl

theorem parseOptions_suffix {options options' : Options} {args rest : List (List Byte)}
    (h : parseOptions options args = some (options', rest)) : rest <:+ args := by
  induction args generalizing options with
  | nil =>
    cases h
    exact suffix_rfl
  | cons arg args ih =>
    rw [parseOptions] at h
    split at h
    next =>
      repeat' split at h
      all_goals first
        | exact (ih h).trans (suffix_cons arg args)
        | cases h
    next =>
      cases h
      exact suffix_rfl

/-- Every request of the `forward` command is the words for the device, a colon and a service that
starts with a letter. -/
theorem forwardCommandFor_request {host request : List Byte} {args : List (List Byte)}
    (hargs : ∀ arg ∈ args, 0 ∉ arg)
    (h : (forwardCommandFor host args).request = some request) :
    ∃ service, request = snprintf 4096 (host ++ 0x3a :: service) ∧ 0 ∉ service ∧
      ∀ c ∈ service.head?, ¬(0x30 ≤ c ∧ c ≤ 0x39) := by
  rw [forwardCommandFor] at h
  cases hoptions : parseOptions ⟨false, false, false, false⟩ args with
  | none =>
    rw [hoptions] at h
    cases h
  | some parsed =>
    obtain ⟨options, rest⟩ := parsed
    have hrest : ∀ arg ∈ rest, 0 ∉ arg :=
      fun arg hmem => hargs arg ((parseOptions_suffix hoptions).subset hmem)
    rw [hoptions] at h
    dsimp only at h
    split at h
    next => cases h
    split at h
    next =>
      split at h <;> cases h
      exact ⟨text "list-forward", rfl, by decide, by rintro c ⟨⟩; decide⟩
    split at h
    next =>
      split at h <;> cases h
      exact ⟨text "killforward-all", rfl, by decide, by rintro c ⟨⟩; decide⟩
    split at h
    next =>
      split at h <;> cases h
      next localSpec =>
        refine ⟨text "killforward:" ++ localSpec, ?_, ?_, ?_⟩
        · rw [removeFor, append_assoc]
          rfl
        · rw [mem_append, not_or]
          exact ⟨by decide, hrest _ mem_cons_self⟩
        · rintro c ⟨⟩
          decide
    next =>
      split at h <;> cases h
      next localSpec remoteSpec =>
        refine ⟨(if options.noRebind then text "forward:norebind:" else text "forward") ++
          text ":" ++ localSpec ++ text ";" ++ remoteSpec, ?_, ?_, ?_⟩
        · simp only [forwardFor, append_assoc]
          rfl
        · simp only [mem_append, not_or]
          refine ⟨⟨⟨⟨?_, by decide⟩, hrest _ mem_cons_self⟩, by decide⟩,
            hrest _ (mem_cons_of_mem _ mem_cons_self)⟩
          cases options.noRebind <;> decide
        · cases options.noRebind <;>
          · rintro c ⟨⟩
            decide

theorem received_forward (hnul : 0 ∉ serial) {service bytes p : List Byte} {s : ASocket}
    (hservice : 0 ∉ service)
    (hbytes : connectBytes (snprintf 4096 (serialPrefix serial ++ 0x3a :: service)) = some bytes)
    (hcollect : smartSocketCollect s p = some bytes) :
    received s p =
      parseHostRequest (text "host-serial:" ++ (serial.take 51 ++ 0x3a :: service)) := by
  have hshort : (serialPrefix serial ++ 0x3a :: service).length < 4096 := by
    by_contra hlong
    rw [connectBytes, if_pos] at hbytes
    · cases hbytes
    · rw [snprintf_eq, length_take]
      omega
  have hzero : 0 ∉ serialPrefix serial ++ 0x3a :: service := by
    rw [serialPrefix_eq]
    simp only [mem_append, mem_cons, not_or]
    exact ⟨⟨by decide, fun hmem => hnul (mem_of_mem_take hmem)⟩, by decide, hservice⟩
  rw [snprintf_of_lt hshort] at hbytes
  rw [received, smartRequest_connectBytes hzero hcollect hbytes, bind_some, serialPrefix_eq,
    append_assoc]

/-- A `transport` request of the client asks for the serial number itself. -/
def SwitchSelects (serial : List Byte) (transport : TransportKind) : Prop :=
  ∀ s p, smartSocketCollect s p = some (switchSocketTransport (some serial) transport) →
    ∃ r, received s p = some r ∧ (transportRequest r).2 = some serial

/-- Every request of the `forward` command is for the serial number itself, which
`handle_forward_request` passes on to `acquire_one_transport`. -/
def ForwardSelects (serial : List Byte) : Prop :=
  ∀ args request bytes, (∀ arg ∈ args, 0 ∉ arg) →
    (forwardCommandFor (serialPrefix serial) args).request = some request →
    connectBytes request = some bytes → ∀ s p, smartSocketCollect s p = some bytes →
      ∃ r, received s p = some r ∧ r.serial = some serial

theorem switchSelects_iff (hnul : 0 ∉ serial) (transport : TransportKind) :
    SwitchSelects serial transport ↔ serial.length ≤ 48 := by
  have hserial : ∀ r : HostRequest,
      r = ⟨text "transport:" ++ serial.take 48, .kTransportAny, none⟩ →
      ((transportRequest r).2 = some serial ↔ serial.length ≤ 48) := by
    rintro r rfl
    change some (serial.take 48) = some serial ↔ _
    rw [some.injEq, take_eq_self_iff]
  constructor
  · intro hselects
    have hcollect := collect_of_empty (s := newSmart 0) rfl
      (switchSocketTransport (some serial) transport)
    obtain ⟨r, hr, hsome⟩ := hselects _ _ hcollect
    rw [received_switch hnul transport hcollect, some.injEq] at hr
    exact (hserial r hr.symm).mp hsome
  · exact fun hlen s p hcollect =>
      ⟨_, received_switch hnul transport hcollect, (hserial _ rfl).mpr hlen⟩

theorem getElem_of_findIdx {service : List Byte} {i : ℕ}
    (h : service.findIdx? (· = 0x3a) = some i) : service[i]? = some 0x3a := by
  obtain ⟨hi, hcolon, -⟩ := findIdx?_eq_some_iff_getElem.mp h
  rw [getElem?_eq_getElem hi, of_decide_eq_true hcolon]

theorem skipHostSerial_colon {service : List Byte} {i : ℕ} (h : skipHostSerial service = some i) :
    service[i]? = some 0x3a := by
  rw [skipHostSerial] at h
  split at h
  next word _ =>
    obtain ⟨k, hk, rfl⟩ := map_eq_some_iff.mp h
    have hcolon := getElem_of_findIdx hk
    rwa [getElem?_drop, Nat.add_comm] at hcolon
  next =>
    obtain ⟨k, hk, hend⟩ := map_eq_some_iff.mp h
    dsimp only at hend
    split at hend
    next hdigits =>
      rw [← hend]
      exact hdigits.2
    next =>
      rw [← hend]
      exact getElem_of_findIdx hk

theorem serial_of_list_forward {r : HostRequest} (hlong : 51 < serial.length)
    (hr : parseHostRequest
      (text "host-serial:" ++ (serial.take 51 ++ 0x3a :: text "list-forward")) =
      some r) : r.serial ≠ some serial := by
  rw [parseHostRequest_serial] at hr
  have hfront : (serial.take 51).length = 51 := by
    rw [length_take]
    omega
  cases hskip : skipHostSerial (serial.take 51 ++ 0x3a :: text "list-forward") with
  | none =>
    rw [hskip] at hr
    cases hr
    exact nofun
  | some i =>
    rw [hskip] at hr
    cases hr
    intro hserial
    have hlen := congrArg length (some.inj hserial)
    rw [length_take] at hlen
    -- a longer serial number would have to end at a colon of the service
    obtain ⟨k, rfl⟩ : ∃ k, i = 51 + (k + 1) := ⟨i - 52, by omega⟩
    have hcolon := skipHostSerial_colon hskip
    rw [getElem?_append_right (by omega), hfront, Nat.add_sub_cancel_left,
      getElem?_cons_succ] at hcolon
    exact absurd (mem_of_getElem? hcolon) (by decide)

theorem forwardSelects_iff (hnul : 0 ∉ serial) :
    ForwardSelects serial ↔ serial.length ≤ 51 ∧ Addressable serial := by
  constructor
  · intro hselects
    have hlen : (serialPrefix serial ++ 0x3a :: text "list-forward").length ≤ 76 := by
      rw [serialPrefix_eq, length_append, length_append, length_take]
      change 12 + min 51 serial.length + 13 ≤ 76
      omega
    have hpos : 1 ≤ (serialPrefix serial ++ 0x3a :: text "list-forward").length := by
      rw [length_append]
      exact Nat.le_add_left_of_le (by decide)
    obtain ⟨bytes, hbytes⟩ : ∃ bytes, connectBytes
        (snprintf 4096 (serialPrefix serial ++ 0x3a :: text "list-forward")) = some bytes := by
      rw [snprintf_of_lt (by omega)]
      exact ⟨_, connectBytes_of_length hpos (by omega)⟩
    have hcollect := collect_of_empty (s := newSmart 0) rfl bytes
    obtain ⟨r, hr, hserial⟩ := hselects [text "--list"] _ _ (by decide) rfl hbytes _ _ hcollect
    rw [received_forward hnul (by decide) hbytes hcollect] at hr
    by_cases hlong : 51 < serial.length
    · exact absurd hserial (serial_of_list_forward hlong hr)
    · refine ⟨not_lt.mp hlong, ?_⟩
      by_contra hnot
      rw [take_of_length_le (not_lt.mp hlong)] at hr
      have hdigit : ∀ c ∈ (text "list-forward").head?, ¬(0x30 ≤ c ∧ c ≤ 0x39) := by
        rintro c ⟨⟩
        decide
      obtain ⟨r', hr', hne⟩ := parseHostRequest_of_not_addressable hnot hdigit
      rw [hr, some.injEq] at hr'
      rw [hr'] at hserial
      exact hne hserial
  · rintro ⟨hlen, haddr⟩ args request bytes hargs hrequest hbytes s p hcollect
    obtain ⟨service, rfl, hservice, hdigit⟩ := forwardCommandFor_request hargs hrequest
    refine ⟨⟨service, .kTransportAny, some serial⟩, ?_, rfl⟩
    rw [received_forward hnul hservice hbytes hcollect, take_of_length_le hlen,
      parseHostRequest_of_addressable haddr hdigit]

/-- The server compares the serial number that was given with `-s` against its transports exactly
when it has at most 48 bytes and `skip_host_serial` finds its end. -/
theorem selected_serial_iff (hnul : 0 ∉ serial) (transport : TransportKind) :
    SwitchSelects serial transport ∧ ForwardSelects serial ↔
      serial.length ≤ 48 ∧ Addressable serial := by
  rw [switchSelects_iff hnul, forwardSelects_iff hnul]
  constructor
  · rintro ⟨hlen, -, haddr⟩
    exact ⟨hlen, haddr⟩
  · rintro ⟨hlen, haddr⟩
    exact ⟨hlen, by omega, haddr⟩

theorem selected_serial_device :
    0 ∉ text "10.0.0.1:5555" ∧
      (SwitchSelects (text "10.0.0.1:5555") .kTransportAny ∧
          ForwardSelects (text "10.0.0.1:5555") ↔
        (text "10.0.0.1:5555").length ≤ 48 ∧ Addressable (text "10.0.0.1:5555")) :=
  ⟨by decide, selected_serial_iff (by decide) .kTransportAny⟩

/-- A serial number of 49 bytes is cut, and the transport with the shorter one is asked for. -/
theorem selected_serial_cut :
    received (newSmart 0)
        (switchSocketTransport (some (replicate 49 0x61)) .kTransportAny) =
      some ⟨text "transport:" ++ replicate 48 0x61, .kTransportAny, none⟩ ∧
    transportRequest ⟨text "transport:" ++ replicate 48 0x61, .kTransportAny, none⟩ =
      (.kTransportAny, some (replicate 48 0x61)) := by
  decide +kernel

end Selection

section RoundTrip

def Selector.Addressed : Selector → Prop
  | .serial s => Addressable s.name
  | _ => True

/-- The request is sent, and the server does `action` for the device that was chosen. -/
def ArrivesAs (sel : Selector) (request : List Byte) (action : ForwardAction) : Prop :=
  ∃ bytes, connectBytes request = some bytes ∧ ∀ s p, smartSocketCollect s p = some bytes →
    serve s p = some ⟨.forward action, sel.ttype, sel.serialName⟩

variable {service : List Byte}

theorem parseHostRequest_of_addressed {sel : Selector} (h : sel.Addressed)
    (hdigit : ∀ c ∈ service.head?, ¬(0x30 ≤ c ∧ c ≤ 0x39)) :
    parseHostRequest (hostPrefix sel ++ 0x3a :: service) =
      some ⟨service, sel.ttype, sel.serialName⟩ := by
  cases sel with
  | any => rfl
  | usb => rfl
  | emulator => rfl
  | serial s =>
    rw [hostPrefix_serial, append_assoc]
    exact parseHostRequest_of_addressable h hdigit

theorem parseHostRequest_of_not_addressed {sel : Selector} (h : ¬sel.Addressed)
    (hdigit : ∀ c ∈ service.head?, ¬(0x30 ≤ c ∧ c ≤ 0x39)) :
    ∃ r, parseHostRequest (hostPrefix sel ++ 0x3a :: service) = some r ∧
      r.serial ≠ sel.serialName := by
  cases sel with
  | any | usb | emulator => exact absurd trivial h
  | serial s =>
    rw [hostPrefix_serial, append_assoc]
    exact parseHostRequest_of_not_addressable h hdigit

/-- A request without a NUL arrives as the server takes it apart, if it is short enough. -/
theorem arrivesAs_iff (sel : Selector) {action action' : ForwardAction} (hnul : 0 ∉ service)
    (hdigit : ∀ c ∈ service.head?, ¬(0x30 ≤ c ∧ c ≤ 0x39))
    (hservice : handleHostRequest service = .forward action') :
    ArrivesAs sel (snprintf 4096 (hostPrefix sel ++ 0x3a :: service)) action ↔
      (snprintf 4096 (hostPrefix sel ++ 0x3a :: service)).length ≤ 1024 ∧ action' = action ∧
        sel.Addressed := by
  by_cases hlong : 1024 < (snprintf 4096 (hostPrefix sel ++ 0x3a :: service)).length
  · refine iff_of_false ?_ fun h => absurd h.1 (by omega)
    rintro ⟨bytes, hbytes, -⟩
    rw [connectBytes, if_pos (Or.inr hlong)] at hbytes
    cases hbytes
  rw [not_lt] at hlong
  rw [and_iff_right hlong]
  have hshort : (hostPrefix sel ++ 0x3a :: service).length < 4096 := by
    rw [snprintf_eq, length_take] at hlong
    omega
  rw [snprintf_of_lt hshort] at hlong ⊢
  have hpos : 1 ≤ (hostPrefix sel ++ 0x3a :: service).length := by
    rw [length_append, length_cons]
    omega
  have hsent := connectBytes_of_length hpos hlong
  have hnul' : 0 ∉ hostPrefix sel ++ 0x3a :: service := by
    rw [mem_append, mem_cons, not_or, not_or]
    exact ⟨nul_notMem_hostPrefix sel, by decide, hnul⟩
  constructor
  · rintro ⟨bytes, hbytes, harrives⟩
    have hcollect := collect_of_empty (s := newSmart 0) rfl bytes
    have hserve := harrives _ _ hcollect
    rw [serve, smartRequest_connectBytes hnul' hcollect hbytes, bind_eq_bind, bind_some] at hserve
    by_cases haddr : sel.Addressed
    · rw [parseHostRequest_of_addressed haddr hdigit, bind_eq_bind, bind_some,
        hservice, Option.pure_def, Option.some.injEq, Served.mk.injEq,
        HostAction.forward.injEq] at hserve
      exact ⟨hserve.1, haddr⟩
    · obtain ⟨r, hr, hserial⟩ := parseHostRequest_of_not_addressed haddr hdigit
      rw [hr, Option.bind_eq_bind, Option.bind_some, Option.pure_def, Option.some.injEq,
        Served.mk.injEq] at hserve
      exact absurd hserve.2.2 hserial
  · rintro ⟨rfl, haddr⟩
    refine ⟨_, hsent, fun s p hcollect => ?_⟩
    rw [serve, smartRequest_connectBytes hnul' hcollect hsent, bind_eq_bind,
      bind_some, parseHostRequest_of_addressed haddr hdigit, bind_eq_bind,
      bind_some, hservice]
    rfl

/-- A forward request comes back as the specs it was made of exactly when it has at most 1024
bytes, it is made without `--no-rebind` and the serial number is addressable; a request to remove a
forward only needs the first and the last. -/
theorem forward_round_trip_iff (sel : Selector) (spec : Spec) (noRebind : Bool) :
    (ArrivesAs sel (forwardRequest sel noRebind spec.localSpec spec.remoteSpec)
        (.installListener spec.localSpec spec.remoteSpec noRebind) ↔
      (forwardRequest sel noRebind spec.localSpec spec.remoteSpec).length ≤ 1024 ∧
        noRebind = false ∧ sel.Addressed) ∧
    (ArrivesAs sel (removeRequest sel spec.localSpec) (.removeListener spec.localSpec) ↔
      (removeRequest sel spec.localSpec).length ≤ 1024 ∧ sel.Addressed) := by
  have hforward : forwardRequest sel noRebind spec.localSpec spec.remoteSpec =
      snprintf 4096 (hostPrefix sel ++ 0x3a :: forwardService noRebind spec) := by
    cases noRebind <;>
      simp only [forwardRequest, forwardFor, forwardService, append_assoc] <;> rfl
  have hremove : removeRequest sel spec.localSpec =
      snprintf 4096 (hostPrefix sel ++ 0x3a :: removeService spec) := by
    simp only [removeRequest, removeFor, removeService, append_assoc]
    rfl
  constructor
  · rw [hforward, arrivesAs_iff sel (nul_notMem_forwardService spec noRebind)
      (by rintro c ⟨⟩; decide) (handleHostRequest_forwardService spec noRebind),
      ForwardAction.installListener.injEq]
    cases noRebind with
    | false => simp
    | true => simp
  · rw [hremove, arrivesAs_iff sel (nul_notMem_removeService spec) (by rintro c ⟨⟩; decide)
      (handleHostRequest_killforward spec.localSpec_ne)]
    simp only [true_and]

/-- `adb forward --no-rebind tcp:1 tcp:2` asks for a listener on `:tcp:1`. -/
theorem forward_norebind_colon :
    (connectBytes (forwardRequest .any true (text "tcp:1") (text "tcp:2"))).bind
        (serve (newSmart 0)) =
      some ⟨.forward (.installListener (text ":tcp:1") (text "tcp:2") true), .kTransportAny,
        none⟩ := by
  decide +kernel

end RoundTrip

end PaxAdb.Forward
