import PaxAdb.Banner
import PaxAdb.StringBuffer

/-!
# The connect data of a device

On a device `fill_connect_data` prints the banner, the type of the device and three of its
properties, into the payload of a connect packet. The host takes it apart again with `parse_banner`.
-/

namespace PaxAdb.Banner

open Sockets (text cString bannerState Server TransportId ConnectionState Env Graph MAX_PAYLOAD)
open List Forward

section Fill

structure Buffer where
  bytes : List Byte
  offset : ℕ
  remaining : ℕ

def overwrite (bytes : List Byte) (offset : ℕ) (s : List Byte) : List Byte :=
  bytes.take offset ++ (s ++ bytes.drop (offset + s.length))

def Buffer.print (b : Buffer) (s : List Byte) : Buffer where
  bytes := overwrite b.bytes b.offset (CString.snprintf b.remaining s)
  offset := b.offset + s.length
  remaining := (b.remaining + 2 ^ 64 - s.length % 2 ^ 64) % 2 ^ 64

def cnxnProps : List (List Byte) :=
  [text "ro.product.name", text "ro.product.model", text "ro.product.device"]

variable (adbDeviceBanner : List Byte) (propertyGet : List Byte → List Byte)

def printedProperty (key : List Byte) : List Byte :=
  key ++ 0x3d :: (propertyGet key ++ [0x3b])

def filled (buf : List Byte) : Buffer :=
  (cnxnProps.map (printedProperty propertyGet)).foldl Buffer.print
    ((⟨buf, 0, buf.length⟩ : Buffer).print (adbDeviceBanner ++ text "::"))

def fillConnectData (buf : List Byte) : List Byte × ℕ :=
  ((filled adbDeviceBanner propertyGet buf).bytes,
    buf.length - (filled adbDeviceBanner propertyGet buf).remaining + 1)

def connectPayload (buf : List Byte) : List Byte :=
  (fillConnectData adbDeviceBanner propertyGet buf).1.take
    (fillConnectData adbDeviceBanner propertyGet buf).2

def connectText : List Byte :=
  adbDeviceBanner ++ text "::" ++ (cnxnProps.map (printedProperty propertyGet)).flatten

end Fill

section Print

variable {b : Buffer} {s tail : List Byte}

structure Holds (b : Buffer) (s tail : List Byte) : Prop where
  bytes : b.bytes = s ++ tail
  offset : b.offset = s.length
  remaining : b.remaining = tail.length
  small : tail.length < 2 ^ 64

theorem Holds.print (h : Holds b s tail) (s' : List Byte) (hfits : s'.length < tail.length) :
    ∃ rest, Holds (b.print s') (s ++ s') (0 :: rest) ∧
      s'.length + (0 :: rest).length = tail.length := by
  have hsmall := h.small
  have hwritten : CString.snprintf b.remaining s' = s' ++ [0] := by
    rw [h.remaining, CString.snprintf_of_lt hfits]
  have hlen : s'.length + (0 :: tail.drop (s'.length + 1)).length = tail.length := by
    rw [length_cons, length_drop]
    omega
  refine ⟨tail.drop (s'.length + 1), ⟨?_, ?_, ?_, by omega⟩, hlen⟩
  · simp only [Buffer.print, hwritten, overwrite, h.bytes, h.offset]
    rw [take_left, ← drop_drop, drop_left, length_append,
      length_singleton, append_assoc, append_assoc]
    rfl
  · simp only [Buffer.print, h.offset, length_append]
  · simp only [Buffer.print, h.remaining]
    omega

theorem Holds.prints (h : Holds b s (0 :: tail)) (ss : List (List Byte))
    (hfits : ss.flatten.length < (0 :: tail).length) :
    ∃ rest, Holds (ss.foldl Buffer.print b) (s ++ ss.flatten) (0 :: rest) ∧
      ss.flatten.length + (0 :: rest).length = (0 :: tail).length := by
  induction ss generalizing b s tail with
  | nil => exact ⟨tail, by simpa using h, by simp⟩
  | cons s' ss ih =>
    rw [flatten_cons, length_append] at hfits
    obtain ⟨rest, hprint, hlen⟩ := h.print s' (by omega)
    obtain ⟨rest', hprints, hlen'⟩ := ih hprint (by omega)
    refine ⟨rest', ?_, ?_⟩
    · rw [foldl_cons, flatten_cons, ← append_assoc]
      exact hprints
    · rw [flatten_cons, length_append]
      omega

variable {adbDeviceBanner : List Byte} {propertyGet : List Byte → List Byte} {buf : List Byte}

theorem connectPayload_eq (hbuf : buf.length < 2 ^ 64)
    (hfits : (connectText adbDeviceBanner propertyGet).length + 1 ≤ buf.length) :
    connectPayload adbDeviceBanner propertyGet buf =
      connectText adbDeviceBanner propertyGet ++ [0] := by
  have hstart : Holds ⟨buf, 0, buf.length⟩ [] buf := ⟨rfl, rfl, rfl, hbuf⟩
  rw [connectText, length_append] at hfits
  obtain ⟨rest, htype, hlen⟩ := hstart.print (adbDeviceBanner ++ text "::") (by omega)
  obtain ⟨rest', hprops, hlen'⟩ :=
    htype.prints (cnxnProps.map (printedProperty propertyGet)) (by omega)
  have hfilled : Holds (filled adbDeviceBanner propertyGet buf)
      (connectText adbDeviceBanner propertyGet) (0 :: rest') := hprops
  have hret : buf.length - (0 :: rest').length + 1 =
      (connectText adbDeviceBanner propertyGet ++ [0]).length := by
    rw [connectText, length_append, length_append, length_singleton]
    omega
  rw [connectPayload, fillConnectData, hfilled.bytes, hfilled.remaining, hret,
    append_cons, take_left]

end Print

section Parse

variable {propertyGet : List Byte → List Byte}

def bannerTypes : List (List Byte × ConnectionState) :=
  [(text "bootloader", .bootloader), (text "device", .device), (text "recovery", .recovery),
    (text "sideload", .sideload)]

/-- A value that can be told from what surrounds it. -/
def Plain (value : List Byte) : Prop := 0x3b ∉ value ∧ 0 ∉ value

theorem tokens_singleton {s : List Byte} (hne : s ≠ []) (h : 0x3b ∉ s) : tokens s = [s] := by
  have hsemi : ∀ c ∈ s, decide (c = 0x3b) = false := by
    intro c hc
    rw [decide_eq_false_iff_not]
    exact ne_of_mem_of_not_mem hc h
  rw [tokens, splitOnP_eq_singleton hsemi]
  exact filter_cons_of_pos (by simpa using hne)

def assignment (propertyGet : List Byte → List Byte) (key : List Byte) : List Byte :=
  key ++ 0x3d :: propertyGet key

theorem tokens_properties (keys : List (List Byte)) (hkeys : ∀ key ∈ keys, 0x3b ∉ key)
    (hvalues : ∀ key ∈ keys, 0x3b ∉ propertyGet key) :
    tokens (keys.map (printedProperty propertyGet)).flatten =
      keys.map (assignment propertyGet) := by
  induction keys with
  | nil => rfl
  | cons key keys ih =>
    have hsemi : 0x3b ∉ assignment propertyGet key := by
      rw [assignment, mem_append, mem_cons]
      rintro (h | h | h)
      · exact hkeys key mem_cons_self h
      · exact absurd h (by decide)
      · exact hvalues key mem_cons_self h
    have hprinted : printedProperty propertyGet key = assignment propertyGet key ++ [0x3b] := by
      rw [printedProperty, assignment, append_assoc, cons_append]
    rw [map_cons, flatten_cons, hprinted, append_assoc, singleton_append,
      tokens_append, tokens_singleton (by simp [assignment]) hsemi,
      ih (fun k hk => hkeys k (mem_cons_of_mem _ hk))
        (fun k hk => hvalues k (mem_cons_of_mem _ hk))]
    rfl

theorem setQualifier_assignment (q : Qualifiers) {key : List Byte} (hkey : 0x3d ∉ key) :
    setQualifier q (assignment propertyGet key) =
      let value := qualOverwrite (propertyGet key)
      if key = text "ro.product.name" then { q with product := value }
      else if key = text "ro.product.model" then { q with model := value }
      else if key = text "ro.product.device" then { q with device := value }
      else q := by
  have hmem : 0x3d ∈ assignment propertyGet key := by simp [assignment]
  rw [setQualifier, if_neg (not_not.mpr hmem)]
  simp only [assignment, takeWhile_append hkey, afterChar_append hkey]

theorem parseQualifiers_eq {banner : List Byte} (q : Qualifiers)
    (hprops : properties banner = (cnxnProps.map (printedProperty propertyGet)).flatten)
    (hvalues : ∀ key ∈ cnxnProps, 0x3b ∉ propertyGet key) :
    parseQualifiers banner q = ⟨qualOverwrite (propertyGet (text "ro.product.name")),
      qualOverwrite (propertyGet (text "ro.product.model")),
      qualOverwrite (propertyGet (text "ro.product.device"))⟩ := by
  rw [parseQualifiers, hprops, tokens_properties cnxnProps (by decide) hvalues]
  simp only [cnxnProps, map_cons, map_nil, foldl_cons, foldl_nil]
  rw [setQualifier_assignment _ (by decide), setQualifier_assignment _ (by decide),
    setQualifier_assignment _ (by decide)]
  rfl

theorem cString_connectText {type : List Byte} (htype : 0 ∉ type)
    (hvalues : ∀ key ∈ cnxnProps, 0 ∉ propertyGet key) (behind : List Byte) :
    cString (connectText type propertyGet ++ 0 :: behind) = connectText type propertyGet := by
  apply Forward.takeWhile_append
  intro h
  rw [connectText, mem_append, mem_append, mem_flatten] at h
  rcases h with (h | h) | ⟨s, hs, h⟩
  · exact htype h
  · exact absurd h (by decide)
  · obtain ⟨key, hkey, rfl⟩ := mem_map.mp hs
    rw [printedProperty, mem_append, mem_cons, mem_append] at h
    have hnames : ∀ key ∈ cnxnProps, (0 : Byte) ∉ key := by decide
    rcases h with h | h | h | h
    · exact hnames key hkey h
    · exact absurd h (by decide)
    · exact hvalues key hkey h
    · exact absurd h (by decide)

theorem connectText_eq (type : List Byte) (propertyGet : List Byte → List Byte) :
    connectText type propertyGet =
      type ++ 0x3a :: ([] ++ 0x3a :: (cnxnProps.map (printedProperty propertyGet)).flatten) :=
  append_assoc _ _ _

/-- What a device prints about itself is what the host takes from it. -/
theorem banner_round_trip {type : List Byte} {state : ConnectionState}
    (htype : (type, state) ∈ bannerTypes) {propertyGet : List Byte → List Byte}
    (hvalues : ∀ key ∈ cnxnProps, Plain (propertyGet key)) {buf : List Byte}
    (hbuf : buf.length = MAX_PAYLOAD)
    (hfits : (connectText type propertyGet).length + 1 ≤ MAX_PAYLOAD) (behind : List Byte)
    {w : Server} (hw : Graph w) (env : Env) (t : TransportId) (q : Qualifiers) :
    (∃ w', Sockets.parseBanner env (connectPayload type propertyGet buf ++ behind) t w = .ok w' ∧
      w'.connectionState t = state) ∧
    parseQualifiers (connectPayload type propertyGet buf ++ behind) q =
      ⟨qualOverwrite (propertyGet (text "ro.product.name")),
        qualOverwrite (propertyGet (text "ro.product.model")),
        qualOverwrite (propertyGet (text "ro.product.device"))⟩ := by
  have hsmall : buf.length < 2 ^ 64 := by
    rw [hbuf]
    decide
  have htypes : ∀ x ∈ bannerTypes, (0 : Byte) ∉ x.1 ∧ (0x3a : Byte) ∉ x.1 := by decide
  obtain ⟨hnul, hcolon⟩ := htypes _ htype
  rw [connectPayload_eq hsmall (hbuf ▸ hfits), append_assoc, singleton_append]
  have hstring := cString_connectText hnul (fun key hkey => (hvalues key hkey).2) behind
  set banner := connectText type propertyGet ++ 0 :: behind
  have hstate : bannerState banner = state := by
    rw [bannerState, hstring, connectText_eq, takeWhile_append hcolon]
    have hstates : ∀ x ∈ bannerTypes, (if x.1 = text "bootloader" then .bootloader
        else if x.1 = text "device" then .device
        else if x.1 = text "recovery" then .recovery
        else if x.1 = text "sideload" then .sideload
        else .host : ConnectionState) = x.2 := by decide
    exact hstates _ htype
  have hprops : properties banner = (cnxnProps.map (printedProperty propertyGet)).flatten := by
    rw [properties, hstring, connectText_eq, afterChar_append hcolon, afterChar_append not_mem_nil]
  refine ⟨?_, parseQualifiers_eq q hprops fun key hkey => (hvalues key hkey).1⟩
  have hlinks : Sockets.Succeeds (Sockets.At (w.links.setState t (bannerState banner)))
      (Sockets.parseBanner env banner t w) := Sockets.parseBanner_links ⟨hw, rfl⟩ banner
  cases hparse : Sockets.parseBanner env banner t w with
  | error e =>
    rw [hparse] at hlinks
    exact hlinks.elim
  | ok w' =>
    rw [hparse] at hlinks
    refine ⟨w', rfl, ?_⟩
    calc w'.connectionState t
        = (w.links.setState t (bannerState banner)).connectionState t :=
          congrArg (fun l => l.connectionState t) hlinks.2
      _ = bannerState banner := Function.update_self ..
      _ = state := hstate

def sampleProperties (key : List Byte) : List Byte :=
  if key = text "ro.product.name" then text "d910"
  else if key = text "ro.product.model" then text "A=9:x"
  else []

theorem banner_round_trip_sample :
    (∃ w', Sockets.parseBanner Sockets.plainEnv (connectPayload (text "device") sampleProperties
      (replicate MAX_PAYLOAD 0xff) ++ []) 0 Server.init = .ok w' ∧
      w'.connectionState 0 = .device) ∧
    parseQualifiers (connectPayload (text "device") sampleProperties
      (replicate MAX_PAYLOAD 0xff) ++ []) ⟨some (text "old"), none, some (text "old")⟩ =
        ⟨some (text "d910"), some (text "A=9:x"), none⟩ := by
  have htype : (text "device", ConnectionState.device) ∈ bannerTypes := by decide
  have hvalues : ∀ key ∈ cnxnProps, Plain (sampleProperties key) := by
    unfold Plain
    decide
  exact banner_round_trip htype hvalues length_replicate (by decide) [] Sockets.graph_init
    Sockets.plainEnv 0 _

end Parse

end PaxAdb.Banner
