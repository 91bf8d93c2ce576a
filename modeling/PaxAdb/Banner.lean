import PaxAdb.ForwardRequest
import PaxAdb.InputThread
import PaxAdb.TransportLinks

/-!
# Banners

A connect packet carries a banner: the type of the device, a field that is not used, and properties
of which three are kept. `parse_banner` takes the payload for a C string. `remote_read` writes
`data_length` bytes into the payload array of a packet that `get_apacket` has not cleared, so
without a NUL among these bytes the banner goes on with what the memory held before.
-/

namespace PaxAdb.Banner

open Sockets (text cString Server TransportId ConnectionState Env Fault Packet Command bannerState
  MAX_PAYLOAD)
open Forward (afterChar)
open Wire (APacket remoteRead commandCode)
open List

structure Qualifiers where
  product : Option (List Byte)
  model : Option (List Byte)
  device : Option (List Byte)
  deriving DecidableEq, Repr

/-- An empty text is kept as `NULL`. -/
def qualOverwrite (src : List Byte) : Option (List Byte) := if src = [] then none else some src

def setQualifier (q : Qualifiers) (token : List Byte) : Qualifiers :=
  if 0x3d ∉ token then q
  else
    let key := token.takeWhile (· ≠ 0x3d)
    let value := qualOverwrite (afterChar 0x3d token)
    if key = text "ro.product.name" then { q with product := value }
    else if key = text "ro.product.model" then { q with model := value }
    else if key = text "ro.product.device" then { q with device := value }
    else q

def tokens (s : List Byte) : List (List Byte) := (s.splitOnP (· = 0x3b)).filter (· ≠ [])

def properties (banner : List Byte) : List Byte :=
  afterChar 0x3a (afterChar 0x3a (cString banner))

def parseQualifiers (banner : List Byte) (q : Qualifiers) : Qualifiers :=
  (tokens (properties banner)).foldl setQualifier q

section Packets

variable (host authEnabled : Bool) (env : Env)

/-- `handle_packet`, with the qualifiers of the transports; `data` of a connect packet is all that
can be read from `p->data` on. -/
def handlePacket (x : Packet) (t : TransportId) (w : Server) (q : TransportId → Qualifiers) :
    Except Fault (Server × (TransportId → Qualifiers)) := do
  let w ← Sockets.handlePacket host authEnabled env x t w
  return (w, match x.command with
    | .aCnxn => Function.update q t (parseQualifiers x.data (q t))
    | _ => q)

def inMemory (p : APacket) (behind : List Byte) : Packet :=
  ⟨.aCnxn, p.msg.arg0.toNat, p.msg.arg1.toNat, p.data ++ behind⟩

def deviceAfter (p : APacket) (behind : List Byte) (t : TransportId) (w : Server)
    (q : TransportId → Qualifiers) : Except Fault (ConnectionState × Qualifiers) :=
  (handlePacket host authEnabled env (inMemory p behind) t w q).map
    (fun r => (r.1.connectionState t, r.2 t))

end Packets

/-- The device does not depend on what was in the payload array. -/
def BannerReceived (p : APacket) : Prop :=
  ∀ host authEnabled env t w q (beyond rest rest' : List Byte),
    rest.length = MAX_PAYLOAD - p.data.length → rest'.length = MAX_PAYLOAD - p.data.length →
    deviceAfter host authEnabled env p (rest ++ beyond) t w q =
      deviceAfter host authEnabled env p (rest' ++ beyond) t w q

section Strings

theorem cString_append_of_mem {s : List Byte} (h : 0 ∈ s) (b : List Byte) :
    cString (s ++ b) = cString s := by
  rw [cString, takeWhile_append, if_neg, cString]
  intro hlen
  have hall := (List.takeWhile_prefix _).eq_of_length hlen
  have hzero := takeWhile_eq_self_iff.mp hall 0 h
  simp at hzero

theorem afterChar_append_cons (c : Byte) (a b : List Byte) :
    ∃ u, afterChar c (a ++ c :: b) = u ++ b := by
  rw [afterChar, dropWhile_append]
  split
  · refine ⟨[], ?_⟩
    rw [dropWhile_cons_of_neg (by simp)]
    rfl
  next hne =>
    refine ⟨(a.dropWhile (· ≠ c)).drop 1 ++ [c], ?_⟩
    rw [drop_append_of_le_length, append_assoc]
    · rfl
    · rw [Nat.one_le_iff_ne_zero, ne_eq, List.length_eq_zero_iff, ← List.isEmpty_iff]
      exact hne

end Strings

section Qualifiers

theorem tokens_append (u s : List Byte) : tokens (u ++ 0x3b :: s) = tokens u ++ tokens s := by
  rw [tokens, splitOnP_append_cons u s (by decide), filter_append]
  rfl

def productBanner (x : Byte) : List Byte := text "::;ro.product.name=" ++ [x]

theorem setQualifier_product (q : Qualifiers) (x : Byte) :
    (setQualifier q (text "ro.product.name=" ++ [x])).product = some [x] := by
  have hkey : (text "ro.product.name=" ++ [x]).takeWhile (· ≠ 0x3d) = text "ro.product.name" := rfl
  have hvalue : afterChar 0x3d (text "ro.product.name=" ++ [x]) = [x] := rfl
  have hmem : 0x3d ∈ text "ro.product.name=" ++ [x] :=
    mem_append_left _ (by decide)
  rw [setQualifier, if_neg (not_not_intro hmem), hkey, hvalue]
  rfl

theorem tokens_product {x : Byte} (hx : x ≠ 0x3b) :
    tokens (text "ro.product.name=" ++ [x]) = [text "ro.product.name=" ++ [x]] := by
  have hsemi : ∀ c ∈ text "ro.product.name=" ++ [x], decide (c = 0x3b) = false := by
    intro c hc
    rw [decide_eq_false_iff_not]
    rintro rfl
    rcases mem_append.mp hc with hc | hc
    · exact absurd hc (by decide)
    · exact hx (mem_singleton.mp hc).symm
  rw [tokens, splitOnP_eq_singleton hsemi]
  rfl

theorem parseQualifiers_product {s : List Byte} (hs : 0 ∉ s) {x : Byte} (hx : x ≠ 0)
    (hsemi : x ≠ 0x3b) (tail : List Byte) (q : Qualifiers) :
    (parseQualifiers (s ++ (productBanner x ++ 0 :: tail)) q).product = some [x] := by
  have hnul : 0 ∉ s ++ productBanner x := by
    rw [mem_append, not_or, productBanner, mem_append, not_or, mem_singleton]
    exact ⟨hs, by decide, hx.symm⟩
  have hstring : cString (s ++ (productBanner x ++ 0 :: tail)) = s ++ productBanner x := by
    rw [← append_assoc]
    exact Forward.takeWhile_append hnul tail
  obtain ⟨u, hu⟩ := afterChar_append_cons 0x3a s (text ":;ro.product.name=" ++ [x])
  obtain ⟨v, hv⟩ := afterChar_append_cons 0x3a u (text ";ro.product.name=" ++ [x])
  have hprops : properties (s ++ (productBanner x ++ 0 :: tail)) =
      v ++ 0x3b :: (text "ro.product.name=" ++ [x]) := by
    rw [properties, hstring]
    exact (congrArg (afterChar 0x3a) hu).trans hv
  rw [parseQualifiers, hprops, tokens_append, tokens_product hsemi, foldl_append]
  exact setQualifier_product _ x

end Qualifiers

section Packets

variable {host authEnabled : Bool} {env : Env} {p : APacket} {t : TransportId} {w : Server}
  {q : TransportId → Qualifiers} {behind behind' : List Byte}

theorem handleCnxn_congr {x y : Packet} (h : bannerState x.data = bannerState y.data) :
    Sockets.handleCnxn host authEnabled env x t w =
      Sockets.handleCnxn host authEnabled env y t w := by
  unfold Sockets.handleCnxn Sockets.parseBanner
  rw [h]

theorem deviceAfter_congr (h : cString (p.data ++ behind) = cString (p.data ++ behind')) :
    deviceAfter host authEnabled env p behind t w q =
      deviceAfter host authEnabled env p behind' t w q := by
  have hstate : bannerState (p.data ++ behind) = bannerState (p.data ++ behind') := by
    rw [bannerState, h, bannerState]
  have hqual : parseQualifiers (p.data ++ behind) (q t) =
      parseQualifiers (p.data ++ behind') (q t) := by
    rw [parseQualifiers, properties, h, parseQualifiers, properties]
  have hserver : Sockets.handlePacket host authEnabled env (inMemory p behind) t w =
      Sockets.handlePacket host authEnabled env (inMemory p behind') t w :=
    handleCnxn_congr hstate
  rw [deviceAfter, handlePacket, hserver]
  simp only [inMemory, hqual]
  rfl

theorem deviceAfter_init (p : APacket) (behind : List Byte) (t : TransportId)
    (q : TransportId → Qualifiers) :
    ∃ c, deviceAfter true false Sockets.plainEnv p behind t Server.init q =
      .ok (c, parseQualifiers (p.data ++ behind) (q t)) := by
  have hspec := Sockets.handlePacket_links true false Sockets.plainEnv Sockets.graph_init
    (inMemory p behind) t
  cases hw : Sockets.handlePacket true false Sockets.plainEnv (inMemory p behind) t Server.init with
  | error e =>
    rw [hw] at hspec
    exact hspec.elim
  | ok w =>
    refine ⟨w.connectionState t, ?_⟩
    rw [deviceAfter, handlePacket, hw]
    change Except.ok (w.connectionState t,
      Function.update q t (parseQualifiers (p.data ++ behind) (q t)) t) = _
    rw [Function.update_self]

theorem BannerReceived.product (h : BannerReceived p) (hnul : 0 ∉ p.data)
    (hlen : p.data.length < MAX_PAYLOAD) {x : Byte} (hx : x ≠ 0) (hsemi : x ≠ 0x3b)
    (q : Qualifiers) : (parseQualifiers p.data q).product = some [x] := by
  obtain ⟨k, hk⟩ : ∃ k, MAX_PAYLOAD - p.data.length = k + 1 :=
    Nat.exists_eq_succ_of_ne_zero (Nat.sub_ne_zero_of_lt hlen)
  set named := productBanner x ++ 0 :: replicate k 0 with hnamed
  have hlong : k + 1 ≤ named.length := by
    rw [hnamed, length_append, length_cons, length_replicate]
    exact Nat.le_add_left _ _
  have hsame := h true false Sockets.plainEnv 0 Server.init (fun _ => q) (named.drop (k + 1))
    (0 :: replicate k 0) (named.take (k + 1)) (by simp [hk])
    (by rw [length_take, min_eq_left hlong, hk])
  rw [take_append_drop, cons_append] at hsame
  obtain ⟨c, hc⟩ := deviceAfter_init p (0 :: (replicate k 0 ++ named.drop (k + 1))) 0
    fun _ => q
  obtain ⟨c', hc'⟩ := deviceAfter_init p named 0 fun _ => q
  rw [hc, hc', Except.ok.injEq, Prod.mk.injEq] at hsame
  have hended : parseQualifiers (p.data ++ 0 :: (replicate k 0 ++ named.drop (k + 1))) q =
      parseQualifiers p.data q := by
    rw [parseQualifiers, parseQualifiers, properties, properties, Forward.cString_eq_self hnul,
      cString, Forward.takeWhile_append hnul]
  rw [← hended, hsame.2, hnamed]
  exact parseQualifiers_product hnul hx hsemi _ q

theorem not_bannerReceived (hnul : 0 ∉ p.data) (hlen : p.data.length < MAX_PAYLOAD) :
    ¬ BannerReceived p := by
  intro h
  have ha := h.product hnul hlen (x := 0x61) (by decide) (by decide) ⟨none, none, none⟩
  have hb := h.product hnul hlen (x := 0x62) (by decide) (by decide) ⟨none, none, none⟩
  exact absurd (ha.symm.trans hb) (by decide)

theorem bannerReceived_of_nul (h : 0 ∈ p.data) : BannerReceived p := by
  intro host authEnabled env t w q beyond rest rest' _ _
  exact deviceAfter_congr ((cString_append_of_mem h _).trans (cString_append_of_mem h _).symm)

theorem bannerReceived_of_length (h : p.data.length = MAX_PAYLOAD) : BannerReceived p := by
  intro host authEnabled env t w q beyond rest rest' hrest hrest'
  rw [h, Nat.sub_self, length_eq_zero_iff] at hrest hrest'
  rw [hrest, hrest']

theorem banner_received_iff {arrivals left : List ReadResult}
    (hread : remoteRead arrivals = some (p, left))
    (_ : p.msg.command = commandCode .aCnxn) :
    BannerReceived p ↔ 0 ∈ p.data ∨ p.msg.dataLength.toNat = MAX_PAYLOAD := by
  obtain ⟨-, -, hfits, -⟩ := Wire.remoteRead_some hread
  rw [← hfits.length]
  constructor
  · intro h
    by_contra hno
    rw [not_or] at hno
    have hle := hfits.bound
    rw [← hfits.length] at hle
    exact not_bannerReceived hno.1 (lt_of_le_of_ne hle hno.2) h
  · rintro (hnul | hlen)
    · exact bannerReceived_of_nul hnul
    · exact bannerReceived_of_length hlen

def deviceBanner : APacket :=
  Wire.completed ⟨.aCnxn, Sockets.A_VERSION, MAX_PAYLOAD,
    text "device::ro.product.name=d910;" ++ [0]⟩

theorem banner_received_device :
    remoteRead [.data deviceBanner.encode] = some (deviceBanner, []) ∧
      BannerReceived deviceBanner :=
  have hread : remoteRead [.data deviceBanner.encode] = some (deviceBanner, []) := by
    decide +kernel
  ⟨hread, (banner_received_iff hread rfl).mpr (.inl (by decide))⟩

def openBanner : APacket :=
  Wire.completed ⟨.aCnxn, Sockets.A_VERSION, MAX_PAYLOAD, text "device"⟩

/-- The six bytes that were received name a device or not, as the old contents of the packet have
it. -/
theorem banner_reads_old_bytes :
    remoteRead [.data openBanner.encode] = some (openBanner, []) ∧
      deviceAfter true false Sockets.plainEnv openBanner (replicate 4090 0) 0 Server.init
        (fun _ => ⟨none, none, none⟩) = .ok (.device, ⟨none, none, none⟩) ∧
      deviceAfter true false Sockets.plainEnv openBanner (replicate 4090 0x78) 0 Server.init
        (fun _ => ⟨none, none, none⟩) = .ok (.host, ⟨none, none, none⟩) := by
  refine ⟨by decide +kernel, by decide +kernel, by decide +kernel⟩

end Packets

end PaxAdb.Banner
