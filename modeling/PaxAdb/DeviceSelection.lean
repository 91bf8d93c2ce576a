import PaxAdb.DeviceListing

/-!
# Selecting a device

`acquire_one_transport` returns the only transport that a caller can mean, and a caller that waits
for a state is not given another one.

The serial number of a request may also be one of the qualifiers as they are listed. `qual_match`
compares the characters with those of the qualifier one by one, where `add_qual` prints them.
-/

namespace PaxAdb.Selection

open Cells List
open Listing (Printing addQual qualText sanitized)
open Sockets (ConnectionState TransportKind text)

section QualMatch

variable {start qual toTest rest : List Byte} {sanitizeQual : Bool}

theorem matchStart_iff : matchStart start toTest = some rest ↔ toTest = start ++ rest := by
  induction start generalizing toTest with
  | nil => simp [matchStart]
  | cons c start ih =>
    rw [matchStart]
    cases toTest with
    | nil => simp
    | cons c' toTest =>
      by_cases hc : c' = c
      · simp [hc, ih]
      · simp [hc]

theorem matchQual_iff :
    matchQual sanitizeQual qual toTest = true ↔
      toTest = if sanitizeQual then sanitized qual else qual := by
  induction qual generalizing toTest with
  | nil => cases sanitizeQual <;> simp [matchQual, sanitized]
  | cons c qual ih =>
    have hcons : (if sanitizeQual then sanitized (c :: qual) else c :: qual) =
        (if sanitizeQual && qualCharIsInvalid c then 0x5f else c) ::
          if sanitizeQual then sanitized qual else qual := by
      cases sanitizeQual <;> simp [sanitized]
    rw [matchQual, hcons]
    generalize (if sanitizeQual && qualCharIsInvalid c then 0x5f else c) = ch
    cases toTest with
    | nil => simp
    | cons c' toTest =>
      by_cases hc : c' = ch
      · simp [hc, ih]
      · simp [hc]

theorem qualMatch_of_ne (h : toTest ≠ []) (start : List Byte) (qual : Option (List Byte))
    (sanitizeQual : Bool) :
    qualMatch toTest start qual sanitizeQual = true ↔
      ∃ q, qual = some q ∧ toTest = start ++ if sanitizeQual then sanitized q else q := by
  rw [qualMatch.eq_def, if_neg h]
  cases qual with
  | none => simp
  | some qual => simp [Option.any_eq_true, matchStart_iff, matchQual_iff]

end QualMatch

variable {state : Option ConnectionState}

section Only

variable {α : Type*} {device : α → Device} {ttype : Option TransportKind}
  {serial : Option (List Byte)}

/-- The transports that the caller may mean. -/
def Selects (ttype : Option TransportKind) (serial : Option (List Byte)) (d : Device) : Prop :=
  d.connectionState ≠ .noperm ∧
    match serial with
    | some serial => serialTest d serial = true
    | none => ttype = some .kTransportAny ∨ ttype = some d.type

instance (d : Device) : Decidable (Selects ttype serial d) := by
  unfold Selects
  cases serial <;> infer_instance

def ambiguousText (ttype : Option TransportKind) (serial : Option (List Byte)) : List Byte :=
  match serial, ttype with
  | none, some .kTransportLocal => text "more than one emulator"
  | none, some .kTransportAny => text "more than one device and emulator"
  | _, _ => text "more than one device"

/-- Without a branch a transport is not meant, and all the branches of one call have one error. -/
theorem branch_eq (d : Device) (hstate : d.connectionState ≠ .noperm) :
    branch d ttype serial =
      if Selects ttype serial d then some (ambiguousText ttype serial) else none := by
  cases serial with
  | some serial => simp [branch, Selects, hstate, ambiguousText]
  | none =>
    have hsel : Selects ttype none d ↔ ttype = some .kTransportAny ∨ ttype = some d.type :=
      and_iff_right hstate
    simp only [branch, hsel]
    generalize d.type = type
    rcases ttype with _ | _ | _ | _ <;> cases type <;> rfl

def noted (device : α → Device) (ts : List α) (error : Option (List Byte)) : Option (List Byte) :=
  if ts.any fun t => (device t).connectionState = .noperm then
    some (text "insufficient permissions for device")
  else error

def found (ttype : Option TransportKind) (serial : Option (List Byte)) (ambiguous : Bool)
    (error : Option (List Byte)) : List α → Search α
  | [] => ⟨none, ambiguous, error⟩
  | [t] => ⟨some t, ambiguous, error⟩
  | _ :: _ :: _ => ⟨none, true, some (ambiguousText ttype serial)⟩

theorem noted_cons_of_noperm {t : α} (h : (device t).connectionState = .noperm) (ts : List α)
    (error : Option (List Byte)) :
    noted device (t :: ts) error =
      noted device ts (some (text "insufficient permissions for device")) := by
  simp [noted, h]

theorem noted_cons {t : α} (h : (device t).connectionState ≠ .noperm) (ts : List α)
    (error : Option (List Byte)) : noted device (t :: ts) error = noted device ts error := by
  simp [noted, h]

theorem searchLoop_eq (ts : List α) (x : Search α) :
    searchLoop device ttype serial ts x =
      found ttype serial x.ambiguous (noted device ts x.error)
        (x.result.toList ++ ts.filter fun t => Selects ttype serial (device t)) := by
  induction ts generalizing x with
  | nil =>
    rcases x with ⟨_ | t, ambiguous, error⟩
    · rfl
    · rfl
  | cons t ts ih =>
    rw [searchLoop]
    by_cases hstate : (device t).connectionState = .noperm
    · have hsel : ¬Selects ttype serial (device t) := fun hsel => hsel.1 hstate
      rw [if_pos hstate, ih, noted_cons_of_noperm hstate, filter_cons_of_neg (by simpa using hsel)]
    · rw [if_neg hstate, branch_eq _ hstate, noted_cons hstate]
      by_cases hsel : Selects ttype serial (device t)
      · rw [if_pos hsel, filter_cons_of_pos (by simpa using hsel)]
        rcases x with ⟨_ | t', ambiguous, error⟩
        · exact ih _
        · rfl
      · rw [if_neg hsel, filter_cons_of_neg (by simpa using hsel)]
        exact ih x

theorem round_eq (state : Option ConnectionState) (ts : List α) (ambiguous : Bool) :
    round device state ttype serial ts ambiguous =
      checkState device state (found ttype serial ambiguous
        (noted device ts (some (text "device not found")))
        (ts.filter fun t => Selects ttype serial (device t))) := by
  rw [round, searchLoop_eq]
  rfl

theorem round_perm {ts ts' : List α} (h : ts'.Perm ts) (state : Option ConnectionState)
    (ambiguous : Bool) :
    round device state ttype serial ts' ambiguous =
      round device state ttype serial ts ambiguous := by
  have hnoted : noted device ts' (some (text "device not found")) =
      noted device ts (some (text "device not found")) := by
    rw [noted, noted, h.any_eq]
  have hfilter := h.filter fun t => Selects ttype serial (device t)
  rw [round_eq, round_eq, hnoted]
  congr 1
  generalize ts'.filter _ = sel' at hfilter ⊢
  generalize ts.filter _ = sel at hfilter ⊢
  rcases sel with _ | ⟨t, _ | ⟨u, sel⟩⟩
  · rw [hfilter.eq_nil]
  · rw [hfilter.eq_singleton]
  · have hlen := hfilter.length_eq
    rcases sel' with _ | ⟨t', _ | ⟨u', sel'⟩⟩
    · simp at hlen
    · simp at hlen
    · rfl

theorem acquireOneTransport_any (ts : List α) (rounds : List (List α)) :
    acquireOneTransport device none ttype serial (ts :: rounds) =
      some (round device none ttype serial ts false) := by
  simp [acquireOneTransport, acquireRounds]

def Ready (state : Option ConnectionState) (d : Device) : Prop :=
  d.connectionState ≠ .offline ∧ d.connectionState ≠ .unauthorized ∧
    (state = none ∨ state = some d.connectionState)

theorem checkState_of_ready {t : α} (h : Ready state (device t))
    (ambiguous : Bool) (error : Option (List Byte)) :
    checkState device state ⟨some t, ambiguous, error⟩ = ⟨some t, ambiguous, none⟩ := by
  obtain ⟨hoffline, hunauth, hstate⟩ := h
  rw [checkState]
  dsimp only
  rw [if_neg hunauth, if_neg hoffline, if_neg fun hwrong => hstate.elim hwrong.1 hwrong.2]

theorem checkState_of_not_ready {t : α}
    (h : ¬Ready state (device t)) (ambiguous : Bool) (error : Option (List Byte)) :
    ∃ error', checkState device state ⟨some t, ambiguous, error⟩ =
      ⟨none, ambiguous, some error'⟩ := by
  rw [checkState]
  dsimp only
  split
  next => exact ⟨_, rfl⟩
  next hunauth =>
    split
    next => exact ⟨_, rfl⟩
    next hoffline =>
      have hwrong : state ≠ none ∧ state ≠ some (device t).connectionState := by
        rw [← not_or]
        exact fun hstate => h ⟨hoffline, hunauth, hstate⟩
      rw [if_pos hwrong]
      exact ⟨_, rfl⟩

theorem checkState_spec (device : α → Device) (state : Option ConnectionState) {x : Search α}
    (hx : x.error ≠ none) :
    (∀ t, (checkState device state x).result = some t ↔
      x.result = some t ∧ Ready state (device t)) ∧
      ((checkState device state x).error = none ↔ (checkState device state x).result ≠ none) := by
  rcases x with ⟨_ | t, ambiguous, error⟩
  · have herror : error ≠ none := hx
    simp [checkState, herror]
  · by_cases hready : Ready state (device t)
    · rw [checkState_of_ready hready]
      simp only [Option.some.injEq, ne_eq, reduceCtorEq, not_false_eq_true, and_true]
      exact fun u => ⟨fun htu => ⟨htu, htu ▸ hready⟩, And.left⟩
    · obtain ⟨error', hchecked⟩ := checkState_of_not_ready hready ambiguous error
      rw [hchecked]
      simp only [Option.some.injEq, reduceCtorEq, false_iff, not_and, ne_eq, not_true_eq_false,
        and_true]
      exact fun u htu => htu ▸ hready

theorem found_result_iff {ambiguous : Bool} {error : Option (List Byte)} {sel : List α} {t : α} :
    (found ttype serial ambiguous error sel).result = some t ↔ sel = [t] := by
  rcases sel with _ | ⟨u, _ | ⟨v, sel⟩⟩
  · simp [found]
  · simp [found]
  · simp [found]

theorem found_error {ambiguous : Bool} {error : Option (List Byte)} (herror : error ≠ none)
    (sel : List α) : (found ttype serial ambiguous error sel).error ≠ none := by
  rcases sel with _ | ⟨u, _ | ⟨v, sel⟩⟩
  · exact herror
  · exact herror
  · simp [found]

theorem noted_ne_none (device : α → Device) (ts : List α) (error : List Byte) :
    noted device ts (some error) ≠ none := by
  rw [noted]
  split
  next => simp
  next => simp

/-- A round returns the only transport that the caller may mean, or an error. -/
theorem round_spec (device : α → Device) (ttype : Option TransportKind)
    (serial : Option (List Byte)) (state : Option ConnectionState) (ts : List α)
    (ambiguous : Bool) :
    (∀ t, (round device state ttype serial ts ambiguous).result = some t ↔
      (ts.filter fun t => Selects ttype serial (device t)) = [t] ∧ Ready state (device t)) ∧
      ((round device state ttype serial ts ambiguous).error = none ↔
        (round device state ttype serial ts ambiguous).result ≠ none) := by
  rw [round_eq]
  obtain ⟨hresult, herror⟩ := checkState_spec device state
    (found_error (noted_ne_none device ts (text "device not found"))
      (ts.filter fun t => Selects ttype serial (device t)))
  exact ⟨fun t => by rw [hresult, found_result_iff], herror⟩

/-- A transport is returned, without an error, when it is the only one that the caller may mean and
it is neither offline nor unauthorized. Otherwise there is an error. The order of the list does not
matter. -/
theorem acquire_one_transport_only (device : α → Device) (ttype : Option TransportKind)
    (serial : Option (List Byte)) (ts : List α) (rounds : List (List α)) :
    ∃ x, acquireOneTransport device none ttype serial (ts :: rounds) = some x ∧
      (∀ t, x.result = some t ∧ x.error = none ↔
        (ts.filter fun t => Selects ttype serial (device t)) = [t] ∧
          (device t).connectionState ≠ .offline ∧ (device t).connectionState ≠ .unauthorized) ∧
      ((¬∃ t, (ts.filter fun t => Selects ttype serial (device t)) = [t] ∧
          (device t).connectionState ≠ .offline ∧ (device t).connectionState ≠ .unauthorized) →
        x.result = none ∧ x.error ≠ none) ∧
      ∀ ts', ts'.Perm ts →
        acquireOneTransport device none ttype serial (ts' :: rounds) = some x := by
  obtain ⟨hresult, herror⟩ := round_spec device ttype serial none ts false
  have hready : ∀ d : Device, Ready none d ↔
      d.connectionState ≠ .offline ∧ d.connectionState ≠ .unauthorized := fun d => by
    simp [Ready]
  simp only [hready] at hresult
  refine ⟨_, acquireOneTransport_any ts rounds, fun t => ?_, fun hnone => ?_, fun ts' hperm => ?_⟩
  · rw [← hresult]
    exact ⟨And.left, fun ht => ⟨ht, herror.mpr (by rw [ht]; exact Option.some_ne_none t)⟩⟩
  · have hnull : (round device none ttype serial ts false).result = none := by
      rw [Option.eq_none_iff_forall_ne_some]
      exact fun t ht => hnone ⟨t, (hresult t).mp ht⟩
    exact ⟨hnull, fun herr => herror.mp herr hnull⟩
  · rw [acquireOneTransport_any, round_perm hperm]

theorem acquireRounds_eq_some {rounds : List (List α)} {ambiguous : Bool} {x : Search α}
    (h : acquireRounds device state ttype serial rounds ambiguous = some x) :
    ∃ ts ∈ rounds, ∃ ambiguous', x = round device state ttype serial ts ambiguous' := by
  induction rounds generalizing ambiguous with
  | nil => simp [acquireRounds] at h
  | cons ts rounds ih =>
    rw [acquireRounds] at h
    split at h
    next =>
      obtain ⟨ts', hts', hx⟩ := ih h
      exact ⟨ts', mem_cons_of_mem ts hts', hx⟩
    next => exact ⟨ts, mem_cons_self, ambiguous, (Option.some.inj h).symm⟩

theorem acquireOneTransport_waits {rounds : List (List α)}
    {x : Search α} {t : α} (h : acquireOneTransport device state ttype serial rounds = some x)
    (ht : x.result = some t) :
    ∃ ts ∈ rounds, (ts.filter fun t => Selects ttype serial (device t)) = [t] ∧
      Ready state (device t) := by
  obtain ⟨ts, hts, ambiguous, rfl⟩ := acquireRounds_eq_some h
  exact ⟨ts, hts, ((round_spec device ttype serial state ts ambiguous).1 t).mp ht⟩

theorem acquireRounds_isSome {rounds : List (List α)} {ambiguous : Bool} {ts : List α} {t : α}
    (hts : ts ∈ rounds) (h : (ts.filter fun t => Selects ttype serial (device t)) = [t])
    (hready : Ready state (device t)) :
    (acquireRounds device state ttype serial rounds ambiguous).isSome := by
  induction rounds generalizing ambiguous with
  | nil => cases hts
  | cons ts' rounds ih =>
    rw [acquireRounds]
    split
    next hsleep =>
      rcases mem_cons.mp hts with rfl | hts
      · have hfound := ((round_spec device ttype serial state ts ambiguous).1 t).mpr ⟨h, hready⟩
        simp [hfound] at hsleep
      · exact ih hts
    next => rfl

/-- A caller that waits for a state of a device is not given a device by guess, nor while it is in
another state, and does not sleep past a round in which the only one it can mean is ready. -/
theorem waiting_caller_served (rounds : List (List α)) :
    (∀ x t, acquireOneTransport device state ttype serial rounds = some x → x.result = some t →
      ∃ ts ∈ rounds, (ts.filter fun t => Selects ttype serial (device t)) = [t] ∧
        Ready state (device t)) ∧
    ∀ ts ∈ rounds, ∀ t, (ts.filter fun t => Selects ttype serial (device t)) = [t] →
      Ready state (device t) →
      (acquireOneTransport device state ttype serial rounds).isSome :=
  ⟨fun _ _ h ht => acquireOneTransport_waits h ht,
    fun _ hts _ h hready => acquireRounds_isSome hts h hready⟩

end Only

section Tokens

variable {start : List Byte} {qual : Option (List Byte)} {sanitizeQual : Bool} {x : List Byte}

def PrintsToken (start : List Byte) (qual : Option (List Byte)) (sanitizeQual : Bool)
    (x : List Byte) : Prop :=
  ∀ (o : Output) (offset room : ℕ), start.length + (qual.getD []).length < room → room < 2 ^ 64 →
    (addQual start qual sanitizeQual ⟨o, offset, room, false⟩).offset = offset + (x.length + 1) ∧
      segment (addQual start qual sanitizeQual ⟨o, offset, room, false⟩).output.cells offset
        (x.length + 1) = 0x20 :: x

theorem printsToken_iff (hsmall : start.length + (qual.getD []).length + 1 < 2 ^ 64) :
    PrintsToken start qual sanitizeQual x ↔ qualText start qual sanitizeQual = 0x20 :: x := by
  have hprinted : ∀ (o : Output) (offset room : ℕ), start.length + (qual.getD []).length < room →
      room < 2 ^ 64 →
      (addQual start qual sanitizeQual ⟨o, offset, room, false⟩).offset =
          offset + (qualText start qual sanitizeQual).length ∧
        segment (addQual start qual sanitizeQual ⟨o, offset, room, false⟩).output.cells offset
          (qualText start qual sanitizeQual).length = qualText start qual sanitizeQual := by
    intro o offset room hroom hlt
    have hle := Listing.length_qualText_le start qual sanitizeQual
    have hp := (Listing.printed_nil o offset hlt).addQual hlt start qual sanitizeQual (by
      simp only [length_nil]
      omega)
    rw [nil_append] at hp
    exact ⟨hp.counts.offset, hp.text (by omega)⟩
  constructor
  · intro h
    obtain ⟨hoffset, hcells⟩ := h ⟨fun _ => 0, []⟩ 0 _ (Nat.lt_succ_self _) hsmall
    obtain ⟨hoffset', hcells'⟩ := hprinted ⟨fun _ => 0, []⟩ 0 _ (Nat.lt_succ_self _) hsmall
    have hlen : (qualText start qual sanitizeQual).length = x.length + 1 := by omega
    rw [hlen] at hcells'
    exact hcells'.symm.trans hcells
  · intro h o offset room hroom hlt
    have hp := hprinted o offset room hroom hlt
    rw [h] at hp
    exact hp

theorem qualMatch_iff (hqual : qual ≠ some []) (hstart : start ≠ []) :
    qualMatch x start qual sanitizeQual = true ↔
      (x = [] ∧ qual = none) ∨ qualText (0x20 :: start) qual sanitizeQual = 0x20 :: x := by
  rw [qualText]
  by_cases hx : x = []
  · cases qual with
    | none => simp [hx, qualMatch]
    | some qual =>
      have hne : qual ≠ [] := fun hnil => hqual (congrArg some hnil)
      simp [hx, hne, hstart, qualMatch]
  · rw [qualMatch_of_ne hx]
    cases qual with
    | none => simp [hx]
    | some qual =>
      have hne : qual ≠ [] := fun hnil => hqual (congrArg some hnil)
      simp [hx, hne, eq_comm]

theorem qualText_ne_blank (hstart : start ≠ []) :
    qualText (0x20 :: start) qual sanitizeQual ≠ [0x20] := by
  rw [qualText]
  split
  next => simp
  next => simp [hstart]

def Proper (qual : Option (List Byte)) : Prop := qual ≠ some [] ∧ (qual.getD []).length < 2 ^ 63

theorem Proper.qualMatch_iff_token (h : Proper qual) (start x : List Byte) (sanitizeQual : Bool)
    (hstart : start ≠ []) (hlen : start.length < 64) :
    qualMatch x start qual sanitizeQual = true ↔
      (x = [] ∧ qual = none) ∨ PrintsToken (0x20 :: start) qual sanitizeQual x := by
  rw [qualMatch_iff h.1 hstart, printsToken_iff]
  have := h.2
  rw [length_cons]
  omega

theorem Proper.token_ne_nil (h : Proper qual) (start : List Byte) (sanitizeQual : Bool)
    (hstart : start ≠ []) (hlen : start.length < 64) :
    ¬PrintsToken (0x20 :: start) qual sanitizeQual [] := by
  rw [printsToken_iff]
  · exact qualText_ne_blank hstart
  · have := h.2
    rw [length_cons]
    omega

theorem or_iff_left_iff (a p m d : Prop) : (((a ∨ p) ∨ m) ∨ d ↔ a) ↔ (¬p ∧ ¬m ∧ ¬d) ∨ a := by
  tauto

/-- A serial number selects a device if and only if it is its serial number, its path or one of its
tokens in the long listing, but for the empty one: a qualifier that is not set matches it. -/
theorem serial_test_iff_listed_iff (d : Device) (x : List Byte) (hproduct : Proper d.product)
    (hmodel : Proper d.model) (hdevice : Proper d.device) :
    (serialTest d x = true ↔
      d.serial = some x ∨ d.devpath = some x ∨ PrintsToken (text " product:") d.product false x ∨
        PrintsToken (text " model:") d.model true x ∨
        PrintsToken (text " device:") d.device false x) ↔
      (x ≠ [] ∨ (d.product ≠ none ∧ d.model ≠ none ∧ d.device ≠ none) ∨ d.serial = some [] ∨
        d.devpath = some []) := by
  have htext : text " product:" = 0x20 :: text "product:" ∧
      text " model:" = 0x20 :: text "model:" ∧ text " device:" = 0x20 :: text "device:" := by decide
  have hp := hproduct.qualMatch_iff_token (text "product:") x false (by decide) (by decide)
  have hm := hmodel.qualMatch_iff_token (text "model:") x true (by decide) (by decide)
  have hd := hdevice.qualMatch_iff_token (text "device:") x false (by decide) (by decide)
  rw [htext.1, htext.2.1, htext.2.2, serialTest]
  simp only [Bool.or_eq_true, decide_eq_true_eq, hp, hm, hd]
  by_cases hx : x = []
  · subst hx
    have hp' := hproduct.token_ne_nil (text "product:") false (by decide) (by decide)
    have hm' := hmodel.token_ne_nil (text "model:") true (by decide) (by decide)
    have hd' := hdevice.token_ne_nil (text "device:") false (by decide) (by decide)
    simp only [hp', hm', hd', true_and, or_false, ne_eq, not_true_eq_false, false_or]
    exact or_iff_left_iff _ _ _ _
  · simp only [hx, false_and, false_or, ne_eq, not_false_eq_true, true_or, or_assoc]

def terminal (model : Option (List Byte)) : Device where
  type := .kTransportUsb
  connectionState := .device
  serial := some (text "A1")
  devpath := some (text "usb:1-2")
  product := none
  model := model
  device := none

theorem serial_test_iff_listed_model :
    (Proper none ∧ Proper (some (text "A 910"))) ∧
      (serialTest (terminal (some (text "A 910"))) (text "model:A_910") = true ↔
        PrintsToken (text " model:") (some (text "A 910")) true (text "model:A_910")) := by
  have hnone : Proper none := ⟨by decide, by decide⟩
  have hmodel : Proper (some (text "A 910")) := ⟨by decide, by decide⟩
  have hiff := (serial_test_iff_listed_iff (terminal (some (text "A 910"))) (text "model:A_910")
    hnone hmodel hnone).mpr (Or.inl (by decide))
  have hprints : PrintsToken (text " model:") (some (text "A 910")) true (text "model:A_910") := by
    rw [printsToken_iff (by decide)]
    decide
  have hlisted := hiff.mpr (Or.inr (Or.inr (Or.inr (Or.inl hprints))))
  exact ⟨⟨hnone, hmodel⟩, ⟨fun _ => hprints, fun _ => hlisted⟩⟩

/-- The empty serial number of the request `host:transport:` is none of the names of a terminal that
has sent no qualifiers, and selects it. -/
theorem serial_test_empty :
    serialTest (terminal none) [] = true ∧
      ¬((terminal none).serial = some [] ∨ (terminal none).devpath = some [] ∨
        PrintsToken (text " product:") (terminal none).product false [] ∨
        PrintsToken (text " model:") (terminal none).model true [] ∨
        PrintsToken (text " device:") (terminal none).device false []) := by
  refine ⟨by decide, ?_⟩
  rw [printsToken_iff (by decide), printsToken_iff (by decide), printsToken_iff (by decide)]
  decide

end Tokens

end PaxAdb.Selection
