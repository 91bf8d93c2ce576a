import PaxAdb.Ring
import PaxAdb.SocketInvariant

/-!
# Offering the keys

The private keys are on a circular list. A transport remembers the node of the key it has tried
last, or NULL, and `adb_auth_nextkey` looks for this node from the head of the list on to find the
one behind it. Behind the last key comes NULL again: then the public key is sent, and the next token
starts over.
-/

namespace PaxAdb.Auth

open Ring List Function
open Sockets (Server TransportId Packet Fault Env ADB_AUTH_TOKEN ADB_AUTH_SIGNATURE
  ADB_AUTH_RSAPUBLICKEY MAX_PAYLOAD)

section Model

variable {α : Type*} [DecidableEq α]

def listInit (m : Links α) (node : α) : Links α := (m.setNext node node).setPrev node node

def listAddTail (m : Links α) (head item : α) : Links α :=
  let m := m.setNext item head
  let m := m.setPrev item (m.prev head)
  let m := m.setNext (m.prev head) item
  m.setPrev head item

/-- `key_list` after `adb_auth_init` has read these keys, of the user and of the vendors. -/
def loadKeys (m : Links α) (head : α) (keys : List α) : Links α :=
  keys.foldl (fun m key => listAddTail m head key) (listInit m head)

/-- The loop of `adb_auth_nextkey` from `item` on, at most `fuel` rounds; `none` when it has not
ended by then. -/
def searchKey (m : Links α) (head current : α) : ℕ → α → Option (Option α)
  | 0, _ => none
  | fuel + 1, item =>
      if item = head then some none
      else if item = current then some (if m.next item = head then none else some (m.next item))
      else searchKey m head current fuel (m.next item)

def adbAuthNextkey (m : Links α) (head : α) (fuel : ℕ) (current : Option α) : Option (Option α) :=
  if head = m.next head then some none
  else
    match current with
    | none => some (some (m.next head))
    | some current => searchKey m head current fuel (m.next head)

/-- `file` is what `load_file` finds in the file of the public key. -/
def adbAuthGetUserkey (file : Option (List Byte)) (len : ℕ) : Option (List Byte) :=
  file.bind fun file => if len < file.length + 1 then none else some (file ++ [0])

structure Keyed (α : Type*) where
  server : Server
  key : TransportId → Option α

structure Arrival where
  packet : Packet
  transport : TransportId
  env : Env
  publicKeyFile : Option (List Byte)

def Arrival.IsToken (x : Arrival) : Prop :=
  x.packet.command = .aAuth ∧ x.packet.arg0 = ADB_AUTH_TOKEN

instance (x : Arrival) : Decidable x.IsToken := by
  unfold Arrival.IsToken
  infer_instance

inductive Stop where
  | fault (f : Fault)
  | spins

variable (m : Links α) (head : α) (fuel : ℕ) (sign : α → List Byte → Option (List Byte))
  (authEnabled : Bool)

def Arrival.envWith (x : Arrival) (key : Option α) : Env :=
  { x.env with
    authNextKey := key.isSome
    authResponse := key.bind fun key => sign key x.packet.data
    authPublicKey := adbAuthGetUserkey x.publicKeyFile MAX_PAYLOAD }

/-- `handle_packet` of the server on the host, which is what has the keys; only a token moves the
`key` of its transport. -/
def handlePacket (x : Arrival) (s : Keyed α) : Except Stop (Keyed α) :=
  match if x.IsToken then adbAuthNextkey m head fuel (s.key x.transport)
    else some (s.key x.transport) with
  | none => .error .spins
  | some key =>
      match Sockets.handlePacket true authEnabled (x.envWith sign key) x.packet x.transport
          s.server with
      | .error f => .error (.fault f)
      | .ok w => .ok ⟨w, update s.key x.transport key⟩

def run (xs : List Arrival) (s : Keyed α) : Except Stop (Keyed α) :=
  xs.foldlM (fun s x => handlePacket m head fuel sign authEnabled x s) s

end Model

section Answers

variable {α : Type*} {sign : α → List Byte → Option (List Byte)} {x : Arrival}

/-- The `key` of a transport at each place of a round: NULL and then the keys. -/
def cursor (l : List α) : ℕ → Option α
  | 0 => none
  | c + 1 => l[c]?

theorem cursor_succ_mod (l : List α) (i : ℕ) :
    cursor l ((i + 1) % (l.length + 1)) = l[i % (l.length + 1)]? := by
  have hlt : i % (l.length + 1) < l.length + 1 := Nat.mod_lt _ (Nat.succ_pos _)
  rw [← Nat.mod_add_mod]
  generalize i % (l.length + 1) = c at hlt ⊢
  rcases Nat.lt_or_eq_of_le (Nat.le_of_lt_succ hlt) with hmore | hlast
  · rw [Nat.mod_eq_of_lt (Nat.succ_lt_succ hmore)]
    rfl
  · rw [hlast, Nat.mod_self, getElem?_eq_none le_rfl]
    rfl

/-- The answer to a token: a signature with `key`, or the public key. -/
def Answers (sign : α → List Byte → Option (List Byte)) (x : Arrival) (p : Packet) :
    Option α → Prop
  | some key => ∃ data, sign key x.packet.data = some data ∧
      p = ⟨.aAuth, ADB_AUTH_SIGNATURE, 0, data⟩
  | none => ∃ data, adbAuthGetUserkey x.publicKeyFile MAX_PAYLOAD = some data ∧
      p = ⟨.aAuth, ADB_AUTH_RSAPUBLICKEY, 0, data⟩

theorem sendAuthData_outbox (arg0 : ℕ) (data : Option (List Byte)) (t : TransportId) (w : Server)
    (p : Packet) :
    (Sockets.sendAuthData arg0 data t w).outbox t = w.outbox t ++ [p] ↔
      ∃ d, data = some d ∧ p = ⟨.aAuth, arg0, 0, d⟩ := by
  cases data with
  | none => simp [Sockets.sendAuthData]
  | some data =>
    simp only [Sockets.sendAuthData, Server.sendPacket, update_self,
      append_cancel_left_eq, cons.injEq, and_true, Option.some.injEq, exists_eq_left']
    exact eq_comm

theorem adbAuthGetUserkey_isSome_iff (file : Option (List Byte)) :
    (∃ data, adbAuthGetUserkey file MAX_PAYLOAD = some data) ↔
      ∃ bytes, file = some bytes ∧ bytes.length < MAX_PAYLOAD := by
  cases file with
  | none | some => simp [adbAuthGetUserkey]

theorem answers_none_iff :
    (∃ p, Answers sign x p none) ↔
      ∃ file, x.publicKeyFile = some file ∧ file.length < MAX_PAYLOAD := by
  rw [← adbAuthGetUserkey_isSome_iff]
  constructor
  · rintro ⟨p, data, hdata, -⟩
    exact ⟨data, hdata⟩
  · rintro ⟨data, hdata⟩
    exact ⟨_, data, hdata, rfl⟩

theorem answers_some {key : α} (hsign : (sign key x.packet.data).isSome) :
    ∃ p, Answers sign x p (some key) := by
  obtain ⟨data, hdata⟩ := Option.isSome_iff_exists.mp hsign
  exact ⟨_, data, hdata, rfl⟩

theorem exists_answers_iff {keys : List α}
    (hsign : ∀ key ∈ keys, ∀ token, (sign key token).isSome) {i : ℕ} :
    (∃ p, Answers sign x p keys[i]?) ↔
      (i < keys.length ∨ ∃ file, x.publicKeyFile = some file ∧ file.length < MAX_PAYLOAD) := by
  by_cases hlt : i < keys.length
  · rw [getElem?_eq_getElem hlt]
    exact iff_of_true (answers_some (hsign _ (getElem_mem hlt) _)) (Or.inl hlt)
  · rw [getElem?_eq_none (not_lt.mp hlt), answers_none_iff]
    exact (or_iff_right hlt).symm

end Answers

section Ring

variable {α : Type*} [DecidableEq α] {m : Links α} {head : α} {l keys : List α}

theorem listAddTail_eq (m : Links α) {head item : α} (hne : item ≠ head) :
    listAddTail m head item = m.insertTail head item := by
  rw [Links.insertTail_eq m hne]
  simp only [listAddTail, Links.setNext, Links.setPrev, update_of_ne hne.symm]

theorem listInit_isRing (m : Links α) (head : α) : IsRing (listInit m head) head [] :=
  isRing_nil (update_self ..) (update_self ..)

theorem isRing_foldl_listAddTail (hr : IsRing m head l) (hnodup : (head :: (l ++ keys)).Nodup) :
    IsRing (keys.foldl (fun m key => listAddTail m head key) m) head (l ++ keys) := by
  induction keys generalizing m l with
  | nil =>
    rw [append_nil]
    exact hr
  | cons key keys ih =>
    have hsplit : l ++ key :: keys = l ++ [key] ++ keys := by simp
    have hnew : key ∉ head :: l := by
      rw [hsplit, ← cons_append, ← cons_append] at hnodup
      have hdisj := (nodup_append.mp (nodup_append.mp hnodup).1).2.2
      exact fun hmem => hdisj key hmem key (mem_singleton_self key) rfl
    have hne : key ≠ head := fun heq => hnew (heq ▸ mem_cons_self)
    rw [foldl_cons, listAddTail_eq m hne, hsplit]
    exact ih (hr.insertTail hnew) (hsplit ▸ hnodup)

theorem loadKeys_isRing (m : Links α) (hnodup : (head :: keys).Nodup) :
    IsRing (loadKeys m head keys) head keys :=
  isRing_foldl_listAddTail (l := []) (listInit_isRing m head) hnodup

theorem searchKey_eq (hr : IsRing m head l) {fuel j k : ℕ} {current item : α}
    (hcurrent : l[j]? = some current) (hitem : l[k]? = some item) (hkj : k ≤ j)
    (hfuel : l.length < fuel + k) :
    searchKey m head current fuel item = some l[j + 1]? := by
  have hj := (List.getElem?_eq_some_iff.mp hcurrent).1
  induction fuel generalizing k item with
  | zero => omega
  | succ fuel ih =>
    have hnot : item ≠ head := fun heq =>
      (List.nodup_cons.mp hr.2).1 (heq ▸ List.mem_of_getElem? hitem)
    rw [searchKey, if_neg hnot]
    -- the node behind `item`, or the head again
    have hnext : l[k + 1]? = if m.next item = head then none else some (m.next item) :=
      hr.getElem?_next (by rw [List.getElem?_cons_succ, hitem])
    by_cases heq : item = current
    · have hkj' : k = j := by
        rw [heq, ← hcurrent] at hitem
        exact (List.getElem?_inj (by omega) hr.2.of_cons).mp hitem
      rw [if_pos heq, ← hnext, hkj']
    · have hlt : k < j := by
        rcases Nat.lt_or_eq_of_le hkj with hlt | rfl
        · exact hlt
        · exact absurd (Option.some.inj (hitem.symm.trans hcurrent)) heq
      have hsome : l[k + 1]? = some (m.next item) := by
        rw [List.getElem?_eq_getElem (by omega)] at hnext ⊢
        split at hnext
        next => cases hnext
        next => exact hnext
      rw [if_neg heq]
      exact ih hsome hlt (by omega)

theorem adbAuthNextkey_cursor (hr : IsRing m head l) {fuel : ℕ} (hfuel : l.length < fuel) {c : ℕ}
    (hc : c ≤ l.length) : adbAuthNextkey m head fuel (cursor l c) = some l[c]? := by
  have hfirst : l[0]? = if m.next head = head then none else some (m.next head) :=
    hr.getElem?_next (by rw [getElem?_cons_zero])
  rw [adbAuthNextkey.eq_def]
  by_cases hempty : head = m.next head
  · rw [if_pos hempty.symm, getElem?_eq_none_iff] at hfirst
    rw [if_pos hempty, getElem?_eq_none (by omega)]
  · rw [if_neg hempty]
    rw [if_neg (Ne.symm hempty)] at hfirst
    cases c with
    | zero => rw [hfirst]; rfl
    | succ c =>
      have hcurrent : l[c]? = some (l.get ⟨c, hc⟩) := getElem?_eq_getElem hc
      rw [cursor, hcurrent]
      exact searchKey_eq hr hcurrent hfirst (Nat.zero_le c) hfuel

end Ring

section Rounds

variable {α : Type*} [DecidableEq α] {m : Links α} {head : α} {l : List α} {fuel : ℕ}
  {sign : α → List Byte → Option (List Byte)} {authEnabled : Bool} {t : TransportId}
  {s s' : Keyed α} {x : Arrival} {xs : List Arrival}

def tokens (t : TransportId) (xs : List Arrival) : ℕ :=
  xs.countP fun x => x.IsToken ∧ x.transport = t

theorem adbAuthNextkey_mod (hr : IsRing m head l) (hfuel : l.length < fuel) {i : ℕ}
    (hkey : s.key t = cursor l (i % (l.length + 1))) :
    adbAuthNextkey m head fuel (s.key t) = some l[i % (l.length + 1)]? := by
  rw [hkey]
  exact adbAuthNextkey_cursor hr hfuel (Nat.le_of_lt_succ (Nat.mod_lt _ (Nat.succ_pos _)))

theorem handlePacket_key (hr : IsRing m head l) (hfuel : l.length < fuel) {i : ℕ}
    (hkey : s.key t = cursor l (i % (l.length + 1)))
    (h : handlePacket m head fuel sign authEnabled x s = .ok s') :
    s'.key t = cursor l ((i + tokens t [x]) % (l.length + 1)) := by
  rw [handlePacket.eq_def] at h
  split at h
  next => cases h
  next key hfound =>
    split at h
    next => cases h
    next w hw =>
      cases h
      dsimp only
      by_cases ht : x.transport = t
      · rw [ht, update_self]
        by_cases htoken : x.IsToken
        · rw [if_pos htoken, ht, adbAuthNextkey_mod hr hfuel hkey] at hfound
          have hone : tokens t [x] = 1 := by simp [tokens, htoken, ht]
          rw [hone, cursor_succ_mod]
          exact (Option.some.inj hfound).symm
        · rw [if_neg htoken, ht] at hfound
          have hzero : tokens t [x] = 0 := by simp [tokens, htoken]
          rw [hzero, Nat.add_zero, ← hkey]
          exact (Option.some.inj hfound).symm
      · have hzero : tokens t [x] = 0 := by simp [tokens, ht]
        rw [update_of_ne (Ne.symm ht), hzero, Nat.add_zero, hkey]

theorem tokens_cons (t : TransportId) (x : Arrival) (xs : List Arrival) :
    tokens t (x :: xs) = tokens t [x] + tokens t xs := by
  rw [← singleton_append, tokens, countP_append]
  rfl

theorem run_key (hr : IsRing m head l) (hfuel : l.length < fuel) {i : ℕ}
    (hkey : s.key t = cursor l (i % (l.length + 1)))
    (h : run m head fuel sign authEnabled xs s = .ok s') :
    s'.key t = cursor l ((i + tokens t xs) % (l.length + 1)) := by
  induction xs generalizing s i with
  | nil =>
    cases h
    exact hkey
  | cons x xs ih =>
    rw [run, foldlM_cons] at h
    cases hx : handlePacket m head fuel sign authEnabled x s with
    | error stop =>
      rw [hx] at h
      cases h
    | ok s₁ =>
      rw [hx] at h
      rw [tokens_cons, ← Nat.add_assoc]
      exact ih (handlePacket_key hr hfuel hkey hx) h

theorem handlePacket_token (sign : α → List Byte → Option (List Byte)) (authEnabled : Bool)
    (hx : x.IsToken) {key : Option α}
    (hfound : adbAuthNextkey m head fuel (s.key x.transport) = some key) :
    ∃ s', handlePacket m head fuel sign authEnabled x s = .ok s' ∧
      ∀ p, s'.server.outbox x.transport = s.server.outbox x.transport ++ [p] ↔
        Answers sign x p key := by
  obtain ⟨hcommand, harg⟩ := hx
  rw [handlePacket.eq_def, if_pos ⟨hcommand, harg⟩, hfound]
  dsimp only
  rw [Sockets.handlePacket, hcommand]
  dsimp only
  refine ⟨_, rfl, fun p => ?_⟩
  dsimp only
  rw [Sockets.handleAuth, if_pos harg]
  cases key with
  | none | some => exact sendAuthData_outbox _ _ _ (Sockets.setConnectionState _ _ s.server) p

/-- The keys are offered in turn. After any packets, among them `i` tokens of its transport, a token
is answered with key number `i` modulo one more than there are keys, and with the public key where
there is no key of this number, if and only if there is a key or the file of the public key can be
sent. -/
theorem token_answer_iff (m : Links α) {keys : List α} (hkeys : (head :: keys).Nodup)
    (hfuel : keys.length < fuel) (hsign : ∀ key ∈ keys, ∀ token, (sign key token).isSome)
    {s₀ : Keyed α} (hstart : s₀.key x.transport = none)
    (hrun : run (loadKeys m head keys) head fuel sign authEnabled xs s₀ = .ok s) (hx : x.IsToken) :
    (∃ s' p, handlePacket (loadKeys m head keys) head fuel sign authEnabled x s = .ok s' ∧
      s'.server.outbox x.transport = s.server.outbox x.transport ++ [p] ∧
      Answers sign x p keys[tokens x.transport xs % (keys.length + 1)]?) ↔
      (tokens x.transport xs % (keys.length + 1) < keys.length ∨
        ∃ file, x.publicKeyFile = some file ∧ file.length < MAX_PAYLOAD) := by
  have hr := loadKeys_isRing m hkeys
  have hkey : s₀.key x.transport = cursor keys (0 % (keys.length + 1)) := by
    rw [hstart, Nat.zero_mod]
    rfl
  have hnow := run_key hr hfuel hkey hrun
  rw [Nat.zero_add] at hnow
  obtain ⟨s', hs', hsent⟩ :=
    handlePacket_token sign authEnabled hx (adbAuthNextkey_mod hr hfuel hnow)
  rw [← exists_answers_iff hsign]
  constructor
  · rintro ⟨_, p, -, -, hp⟩
    exact ⟨p, hp⟩
  · rintro ⟨p, hp⟩
    exact ⟨s', p, hs', (hsent p).mpr hp, hp⟩

def tokenWith (file : Option (List Byte)) : Arrival :=
  ⟨⟨.aAuth, ADB_AUTH_TOKEN, 0, [7]⟩, 0, Sockets.plainEnv, file⟩

def noKeysTried : Keyed ℕ := ⟨Server.init, fun _ => none⟩

def signWith (key : ℕ) (_ : List Byte) : Option (List Byte) := some [UInt8.ofNat key]

/-- Two keys and the public key have been tried, and the first key again: the fifth token gets the
second key. -/
theorem token_answer_second_round :
    let xs := replicate 4 (tokenWith (some [9]))
    let m := loadKeys ⟨id, id⟩ 0 [1, 2]
    ∃ s, run m 0 3 signWith false xs noKeysTried = .ok s ∧
      ∃ s' p, handlePacket m 0 3 signWith false (tokenWith none) s = .ok s' ∧
        s'.server.outbox 0 = s.server.outbox 0 ++ [p] ∧
        Answers signWith (tokenWith none) p (some 2) := by
  intro xs m
  have hsign : ∀ key ∈ [1, 2], ∀ token, (signWith key token).isSome = true := fun _ _ _ => rfl
  have htoken : (tokenWith none).IsToken := ⟨rfl, rfl⟩
  have hnodup : (0 :: [1, 2]).Nodup := by decide
  have hfuel : [1, 2].length < 3 := by decide
  obtain ⟨s, hrun⟩ : ∃ s, run m 0 3 signWith false xs noKeysTried = .ok s := ⟨_, rfl⟩
  have hcount : tokens (tokenWith none).transport xs = 4 := by decide
  have hanswer := token_answer_iff ⟨id, id⟩ hnodup hfuel hsign rfl hrun htoken
  rw [hcount] at hanswer
  exact ⟨s, hrun, hanswer.mpr (Or.inl (by decide))⟩

/-- Without the file of the public key, the second of two tokens is not answered. -/
theorem token_not_answered :
    ((run (loadKeys ⟨id, id⟩ 0 [1]) 0 2 signWith false [tokenWith none, tokenWith none]
      noKeysTried).toOption.map fun s => s.server.outbox 0) =
      some [⟨.aAuth, ADB_AUTH_SIGNATURE, 0, [1]⟩] := by
  rfl

end Rounds

end PaxAdb.Auth
