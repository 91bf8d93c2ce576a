import PaxAdb.CopyFile
import PaxAdb.Sideload
import PaxAdb.SocketSpecs

/-!
# Installing several packages in one session

`install_multiple_app` creates a session on the device, streams one APK after the other into it, and
commits the session when all were taken, or abandons it. The answer to the last request decides what
is returned, whichever of the two it was.
-/

namespace PaxAdb.Install

open Sockets (text cString of_bind_ok)
open Client (Connection)
open Tool (appended argsText)
open Sync (baseName)
open Copy (copyToFile Copied)
open List Decimal

section Model

def strrchr (c : Byte) : List Byte → Option (List Byte)
  | [] => none
  | b :: s => (strrchr c s).or (if b = c then some (b :: s) else none)

def toLower (c : Byte) : Byte := if 0x41 ≤ c ∧ c ≤ 0x5a then c + 0x20 else c

def isApk (file : List Byte) : Bool :=
  (strrchr 0x2e file).any fun dot => dot.map toLower = text ".apk"

structure Stat where
  isReg : Bool
  size : ℕ
  deriving DecidableEq, Repr

inductive Request where
  | create (service : List Byte)
  | write (i : ℕ) (service : List Byte)
  | commit (id : ℤ)
  | abandon (id : ℤ)
  deriving DecidableEq, Repr

def Request.service : Request → List Byte
  | create service => service
  | write _ service => service
  | commit id => text "exec:pm install-commit " ++ decimal id
  | abandon id => text "exec:pm install-abandon " ++ decimal id

/-- What the calls for the file `argv[i]` and the requests to the server give. A file is looked at
when the arguments are scanned, and again when it is streamed. -/
structure Env where
  stat : ℕ → Option Stat
  statAgain : ℕ → Option Stat
  adbOpen : ℕ → Option (List ReadResult)
  adbConnect : Request → Option Connection

inductive Stop where
  | waiting
  | overflow
  deriving DecidableEq, Repr

def readStatusLine : ℕ → List ReadResult → Option (List Byte)
  | 0, _ => some []
  | _ + 1, [] => none
  | _ + 1, .data [] :: _ => some []
  | count + 1, .data (b :: bytes) :: reads =>
      (readStatusLine (count - bytes.length) reads).map ((b :: bytes).take (count + 1) ++ ·)
  | count + 1, .eintr :: reads => readStatusLine (count + 1) reads
  | _ + 1, .eagain :: _ => some []
  | _ + 1, .error :: _ => some []

def succeeded (buf : List Byte) : Bool := (text "Success").isPrefixOf buf

/-- The string is cut at the last closing bracket before the number is read. -/
def sessionId (buf : List Byte) : ℤ :=
  if succeeded buf then
    match strrchr 0x5b (cString buf), strrchr 0x5d (cString buf) with
    | some start, some close =>
        atoi (if close.length < start.length
          then (start.take (start.length - close.length)).tail else start.tail)
    | _, _ => -1
  else -1

structure Scan where
  firstApk : Option ℕ
  totalSize : ℕ

def scanApks (env : Env) (argv : List (List Byte)) : ℕ → Scan → Option Scan
  | 0, x => some x
  | i + 1, x =>
      if (argv[i]?).any isApk then
        match env.stat i with
        | some ⟨true, size⟩ => scanApks env argv i ⟨some i, x.totalSize + size⟩
        | _ => none
      else some x

def createBuf (totalSize : ℕ) (args : List (List Byte)) : StringBuffer :=
  (StringBuffer.snprintf 1024 (text "exec:pm install-create -S " ++
    decimal ((totalSize : ℤ).bmod (2 ^ 64)))).strncats 1023 (appended args)

def writeService (id : ℤ) (i : ℕ) (file : List Byte) (sb : Stat) : List Byte :=
  (StringBuffer.snprintf 1024 (text "exec:pm install-write -S " ++ decimal sb.size ++ text " " ++
    decimal id ++ text " " ++ decimal i ++ text "_" ++ baseName file ++ text " -")).string

def Env.ask (env : Env) (r : Request) : Except Stop (Option (List Byte)) :=
  match env.adbConnect r with
  | none => .ok none
  | some c =>
      match readStatusLine 1023 c.reads with
      | none => .error .waiting
      | some buf => .ok (some buf)

def writeApk (env : Env) (id : ℤ) (i : ℕ) (file : List Byte) : Except Stop (List Request × Bool) :=
  match env.statAgain i with
  | none => .ok ([], false)
  | some sb =>
      let r := .write i (writeService id i file sb)
      match env.adbOpen i with
      | none => .ok ([], false)
      | some input =>
          match env.adbConnect r with
          | none => .ok ([r], false)
          | some c =>
              match copyToFile input c.writes, readStatusLine 1023 c.reads with
              | some _, some buf => .ok ([r], succeeded buf)
              | _, _ => .error .waiting

def writeApks (env : Env) (id : ℤ) : List (List Byte × ℕ) → Except Stop (List Request × Bool)
  | [] => .ok ([], true)
  | (file, i) :: rest => do
      let (rs, ok) ← writeApk env id i file
      if ok then
        let (rs', ok) ← writeApks env id rest
        return (rs ++ rs', ok)
      else return (rs, false)

structure Session where
  id : ℤ
  apks : List (List Byte × ℕ)
  deriving DecidableEq, Repr

structure Returned where
  code : ℤ
  session : Option Session
  requests : List Request
  deriving DecidableEq, Repr

def finalizeSession (env : Env) (s : Session) (ok : Bool) (rs : List Request) :
    Except Stop Returned := do
  let r : Request := if ok then .commit s.id else .abandon s.id
  let answer ← env.ask r
  return ⟨if answer.any succeeded then 0 else -1, some s, rs ++ [r]⟩

def installFrom (env : Env) (argv : List (List Byte)) (first totalSize : ℕ) :
    Except Stop Returned :=
  let buf := createBuf totalSize ((argv.take first).drop 1)
  if buf.InBounds 1024 then do
    let r := .create buf.string
    match ← env.ask r with
    | none => return ⟨-1, none, [r]⟩
    | some line =>
        let id := sessionId line
        if id < 0 then return ⟨-1, none, [r]⟩
        else do
          let s : Session := ⟨id, argv.zipIdx.drop first⟩
          let (rs, ok) ← writeApks env id s.apks
          finalizeSession env s ok (r :: rs)
  else .error .overflow

def installMultipleApp (env : Env) (argv : List (List Byte)) : Except Stop Returned :=
  match scanApks env argv argv.length ⟨none, 0⟩ with
  | none => .ok ⟨-1, none, []⟩
  | some ⟨none, _⟩ => .ok ⟨1, none, []⟩
  | some ⟨some first, totalSize⟩ => installFrom env argv first totalSize

end Model

section Requests

def Request.finalises : Request → Bool
  | commit _ => true
  | abandon _ => true
  | _ => false

def Request.apk : Request → Option ℕ
  | write i _ => some i
  | _ => none

variable {env : Env} {argv : List (List Byte)} {id : ℤ} {s : Session} {out : Returned}
  {file : List Byte} {i : ℕ} {rs : List Request} {ok : Bool} {P : Copied → Prop}

def Env.grants (env : Env) (r : Request) : Prop :=
  ∃ c buf, env.adbConnect r = some c ∧ readStatusLine 1023 c.reads = some buf ∧ succeeded buf

/-- The file `argv[i]` is there, its copy to the device satisfies `P`, and the device has answered
with `Success`. -/
def Env.takes (env : Env) (P : Copied → Prop) (id : ℤ) (i : ℕ) (file : List Byte) : Prop :=
  ∃ sb input c copied buf, env.statAgain i = some sb ∧ env.adbOpen i = some input ∧
    env.adbConnect (.write i (writeService id i file sb)) = some c ∧
    copyToFile input c.writes = some copied ∧ P copied ∧
    readStatusLine 1023 c.reads = some buf ∧ succeeded buf

def Env.takesAll (env : Env) (P : Copied → Prop) (s : Session) : Prop :=
  ∀ x ∈ s.apks, env.takes P s.id x.2 x.1

/-- Every APK was answered with `Success`, however much of it had been copied. -/
abbrev Env.answersAll (env : Env) (s : Session) : Prop := env.takesAll (fun _ => True) s

/-- Every APK was copied completely and answered with `Success`. -/
abbrev Env.streamsAll (env : Env) (s : Session) : Prop := env.takesAll Copied.Complete s

theorem ask_eq_ok {r : Request} {answer : Option (List Byte)} (h : env.ask r = .ok answer) :
    answer.any succeeded = true ↔ env.grants r := by
  rw [Env.ask] at h
  unfold Env.grants
  cases hc : env.adbConnect r with
  | none =>
    simp only [hc] at h
    cases h
    simp
  | some c =>
    simp only [hc] at h
    cases hl : readStatusLine 1023 c.reads with
    | none =>
      simp only [hl] at h
      cases h
    | some buf =>
      simp only [hl] at h
      cases h
      simp [hl]

theorem writeApk_spec (h : writeApk env id i file = .ok (rs, ok)) :
    (ok = true ↔ env.takes (fun _ => True) id i file) ∧ rs.filter Request.finalises = [] ∧
      (ok = true → rs.filterMap Request.apk = [i]) := by
  rw [writeApk] at h
  unfold Env.takes
  cases hsb : env.statAgain i with
  | none =>
    simp only [hsb] at h
    cases h
    simp
  | some sb =>
    simp only [hsb] at h
    cases hin : env.adbOpen i with
    | none =>
      simp only [hin] at h
      cases h
      simp
    | some input =>
      simp only [hin] at h
      cases hc : env.adbConnect (.write i (writeService id i file sb)) with
      | none =>
        simp only [hc] at h
        cases h
        simp [hc, Request.finalises]
      | some c =>
        simp only [hc] at h
        split at h
        next hcopy hline =>
          cases h
          simp [hc, hcopy, hline, Request.finalises, Request.apk]
        next => cases h

/-- What the loop over the APKs asks for, by induction on the arguments that are left. -/
theorem writeApks_spec {apks : List (List Byte × ℕ)} (h : writeApks env id apks = .ok (rs, ok)) :
    (ok = true ↔ ∀ x ∈ apks, env.takes (fun _ => True) id x.2 x.1) ∧
      rs.filter Request.finalises = [] ∧
      (ok = true → rs.filterMap Request.apk = apks.map Prod.snd) := by
  induction apks generalizing rs ok with
  | nil =>
    cases h
    simp
  | cons x apks ih =>
    obtain ⟨file, i⟩ := x
    obtain ⟨⟨rs₁, ok₁⟩, hone, h⟩ := of_bind_ok h
    obtain ⟨htakes, hfin, hapk⟩ := writeApk_spec hone
    rw [forall_mem_cons, ← htakes]
    cases ok₁ with
    | false =>
      cases h
      exact ⟨by simp, hfin, nofun⟩
    | true =>
      obtain ⟨⟨rs₂, ok₂⟩, hrest, h⟩ := of_bind_ok h
      obtain ⟨htakes', hfin', hapk'⟩ := ih hrest
      cases h
      refine ⟨by simp [htakes'], by simp [hfin, hfin'], fun hok => ?_⟩
      simp [hapk rfl, hapk' hok]

/-- A run with a session: the requests end with the only one that finalises it. -/
structure Finalised (env : Env) (s : Session) (out : Returned) : Prop where
  commit : env.answersAll s → out.requests.filter Request.finalises = [.commit s.id] ∧
    out.requests.filterMap Request.apk = s.apks.map Prod.snd
  abandon : ¬ env.answersAll s → out.requests.filter Request.finalises = [.abandon s.id]
  zero : out.code = 0 ↔ (env.answersAll s ∧ env.grants (.commit s.id) ∨
    ¬ env.answersAll s ∧ env.grants (.abandon s.id))

theorem finalizeSession_spec {service : List Byte} (hok : ok = true ↔ env.answersAll s)
    (hfin : rs.filter Request.finalises = [])
    (hapk : ok = true → rs.filterMap Request.apk = s.apks.map Prod.snd)
    (h : finalizeSession env s ok (.create service :: rs) = .ok out) :
    out.session = some s ∧ Finalised env s out := by
  obtain ⟨answer, hask, h⟩ := of_bind_ok h
  have hgrants := ask_eq_ok hask
  cases h
  refine ⟨rfl, fun hall => ?_, fun hall => ?_, ?_⟩
  · obtain rfl := hok.mpr hall
    simp [Request.finalises, Request.apk, filterMap_cons, hfin, hapk rfl]
  · have hfalse : ok = false := Bool.eq_false_iff.mpr fun htrue => hall (hok.mp htrue)
    simp [Request.finalises, hfin, hfalse]
  · have hcode : (if answer.any succeeded then (0 : ℤ) else -1) = 0 ↔
        answer.any succeeded = true := by
      split <;> simp_all
    rw [hcode, hgrants, ← hok]
    cases ok <;> simp

/-- Every run that comes back has no session and fails, or has one and finalises it. -/
theorem installMultipleApp_spec (h : installMultipleApp env argv = .ok out) :
    out.session = none ∧ out.code ≠ 0 ∨ ∃ s, out.session = some s ∧ Finalised env s out := by
  rw [installMultipleApp] at h
  split at h
  next =>
    cases h
    exact Or.inl ⟨rfl, by decide⟩
  next =>
    cases h
    exact Or.inl ⟨rfl, by decide⟩
  next first totalSize _ =>
    rw [installFrom] at h
    split at h
    next =>
      obtain ⟨answer, hask, h⟩ := of_bind_ok h
      cases answer with
      | none =>
        cases h
        exact Or.inl ⟨rfl, by simp⟩
      | some line =>
        dsimp only at h
        split at h
        next =>
          cases h
          exact Or.inl ⟨rfl, by simp⟩
        next =>
          obtain ⟨⟨rs, ok⟩, hw, h⟩ := of_bind_ok h
          obtain ⟨htakes, hfin, hapk⟩ := writeApks_spec hw
          exact Or.inr ⟨_, finalizeSession_spec htakes hfin hapk h⟩
    next => cases h

end Requests

section Buffer

variable {env : Env} {argv args : List (List Byte)}

/-- The command that creates a session. -/
def createText (totalSize : ℕ) (args : List (List Byte)) : List Byte :=
  text "exec:pm install-create -S " ++ decimal ((totalSize : ℤ).bmod (2 ^ 64)) ++ argsText args

theorem createBuf_inBounds_iff (totalSize : ℕ) (hargs : ∀ arg ∈ args, 0 ∉ arg) :
    (createBuf totalSize args).InBounds 1024 ↔ (createText totalSize args).length < 1024 := by
  have hlow := Int.le_bmod (x := totalSize) (m := 2 ^ 64) (by decide)
  have hhigh := Int.bmod_lt (x := totalSize) (m := 2 ^ 64) (by decide)
  generalize hm : (totalSize : ℤ).bmod (2 ^ 64) = m at hlow hhigh
  have hdigits : (digits m.natAbs).length ≤ 20 := length_digits_of_lt (by omega)
  have hsign : (decide (m < 0)).toNat ≤ 1 := Bool.toNat_le _
  have hfirst : (text "exec:pm install-create -S " ++ decimal m).length < 1024 := by
    rw [length_append, length_decimal]
    change 26 + _ < 1024
    omega
  have hnul : 0 ∉ text "exec:pm install-create -S " ++ decimal m := by
    rw [mem_append, not_or]
    exact ⟨by decide, nul_notMem_decimal m⟩
  rw [createBuf, createText, hm]
  exact Tool.inBounds_appended_iff (append_ne_nil_of_left_ne_nil (by decide) _) hnul hfirst
    hargs

theorem overflow_of_bind {α β : Type} {x : Except Stop α} {f : α → Except Stop β}
    (h : (x >>= f) = .error .overflow) :
    x = .error .overflow ∨ ∃ a, x = .ok a ∧ f a = .error .overflow := by
  cases x with
  | error e =>
    cases h
    exact Or.inl rfl
  | ok a => exact Or.inr ⟨a, rfl, h⟩

theorem ask_ne_overflow (r : Request) : env.ask r ≠ .error .overflow := by
  rw [Env.ask]
  split
  next => simp
  next =>
    split
    next => simp
    next => simp

theorem writeApk_ne_overflow (id : ℤ) (i : ℕ) (file : List Byte) :
    writeApk env id i file ≠ .error .overflow := by
  rw [writeApk]
  dsimp only
  repeat' split
  all_goals simp

theorem writeApks_ne_overflow (id : ℤ) (apks : List (List Byte × ℕ)) :
    writeApks env id apks ≠ .error .overflow := by
  induction apks with
  | nil => simp [writeApks]
  | cons x apks ih =>
    intro h
    rcases overflow_of_bind h with hone | ⟨⟨rs, ok⟩, -, h⟩
    · exact writeApk_ne_overflow _ _ _ hone
    · cases ok with
      | false => cases h
      | true =>
        rcases overflow_of_bind h with hrest | ⟨_, -, h⟩
        · exact ih hrest
        · cases h

/-- Only the command that creates the session can be too long. -/
theorem installFrom_overflow_iff (first totalSize : ℕ) :
    installFrom env argv first totalSize = .error .overflow ↔
      ¬(createBuf totalSize ((argv.take first).drop 1)).InBounds 1024 := by
  rw [installFrom]
  split
  next hin =>
    refine iff_of_false (fun h => ?_) (not_not.mpr hin)
    rcases overflow_of_bind h with hask | ⟨answer, -, h⟩
    · exact ask_ne_overflow _ hask
    · cases answer with
      | none => cases h
      | some line =>
        dsimp only at h
        split at h
        next => cases h
        next =>
          rcases overflow_of_bind h with hwrite | ⟨⟨rs, ok⟩, -, h⟩
          · exact writeApks_ne_overflow _ _ hwrite
          · rcases overflow_of_bind h with hask | ⟨_, -, h⟩
            · exact ask_ne_overflow _ hask
            · cases h
  next hin => exact iff_of_true rfl hin

/-- If there are APKs to install, the command that creates the session fits `buf`. -/
def CreateFits (env : Env) (argv : List (List Byte)) : Prop :=
  ∀ first totalSize, scanApks env argv argv.length ⟨none, 0⟩ = some ⟨some first, totalSize⟩ →
    (createText totalSize ((argv.take first).drop 1)).length < 1024

theorem not_overflow_iff (hargs : ∀ arg ∈ argv, 0 ∉ arg) :
    installMultipleApp env argv ≠ .error .overflow ↔ CreateFits env argv := by
  have hscanned : ∀ first, ∀ arg ∈ (argv.take first).drop 1, 0 ∉ arg := fun first arg harg =>
    hargs arg (mem_of_mem_take (mem_of_mem_drop harg))
  rw [installMultipleApp, CreateFits]
  cases hscan : scanApks env argv argv.length ⟨none, 0⟩ with
  | none => simp
  | some x =>
    obtain ⟨first, totalSize⟩ := x
    cases first with
    | none => simp
    | some first =>
      simp only [ne_eq, installFrom_overflow_iff, not_not,
        createBuf_inBounds_iff totalSize (hscanned first), Option.some.injEq, Scan.mk.injEq]
      constructor
      · rintro h _ _ ⟨rfl, rfl⟩
        exact h
      · exact fun h => h first totalSize ⟨rfl, rfl⟩

end Buffer

section Sessions

variable {env : Env} {argv : List (List Byte)}

/-- The session is finalised by one request, which commits it exactly when every APK was streamed
completely and taken, in order; and 0 is returned only for a commit that was granted. -/
structure Orderly (env : Env) (out : Returned) : Prop where
  commit : ∀ s, out.session = some s → env.streamsAll s →
    out.requests.filter Request.finalises = [.commit s.id] ∧
      out.requests.filterMap Request.apk = s.apks.map Prod.snd
  abandon : ∀ s, out.session = some s → ¬ env.streamsAll s →
    out.requests.filter Request.finalises = [.abandon s.id]
  zero : out.code = 0 → ∃ s, out.session = some s ∧ .commit s.id ∈ out.requests ∧
    env.grants (.commit s.id)

/-- The device takes an APK only when it has all of it, and does not report the end of an abandoned
session as a success. -/
structure Honest (env : Env) (s : Session) : Prop where
  streams : env.answersAll s → env.streamsAll s
  abandons : ¬ env.answersAll s → ¬ env.grants (.abandon s.id)

theorem Env.streamsAll.answersAll {s : Session} (h : env.streamsAll s) : env.answersAll s := by
  intro x hx
  obtain ⟨sb, input, c, copied, buf, hsb, hin, hc, hcopy, -, hline, hok⟩ := h x hx
  exact ⟨sb, input, c, copied, buf, hsb, hin, hc, hcopy, trivial, hline, hok⟩

theorem Finalised.orderly_iff {s : Session} {out : Returned} (h : Finalised env s out)
    (hs : out.session = some s) : Orderly env out ↔ Honest env s := by
  constructor
  · intro ho
    constructor
    · intro hall
      by_contra hnot
      have heq := (ho.abandon s hs hnot).symm.trans (h.commit hall).1
      simp at heq
    · intro hnot hgrant
      obtain ⟨s', hs', hmem, -⟩ := ho.zero (h.zero.mpr (Or.inr ⟨hnot, hgrant⟩))
      have hfilter : Request.commit s'.id ∈ out.requests.filter Request.finalises :=
        mem_filter.mpr ⟨hmem, rfl⟩
      rw [h.abandon hnot] at hfilter
      simp at hfilter
  · intro hh
    refine ⟨fun s' hs' hall => ?_, fun s' hs' hnot => ?_, fun hzero => ?_⟩
    · cases hs.symm.trans hs'
      exact h.commit hall.answersAll
    · cases hs.symm.trans hs'
      exact h.abandon fun hall => hnot (hh.streams hall)
    · rcases h.zero.mp hzero with ⟨hall, hgrant⟩ | ⟨hnot, hgrant⟩
      · have hmem : Request.commit s.id ∈ out.requests.filter Request.finalises := by
          rw [(h.commit hall).1]
          exact mem_singleton_self _
        exact ⟨s, hs, (mem_filter.mp hmem).1, hgrant⟩
      · exact absurd hgrant (hh.abandons hnot)

/-- Unless a connection waits for ever, an installation is orderly exactly when the command that
creates the session fits its buffer and the device is honest about the session. -/
theorem install_session_iff (hargs : ∀ arg ∈ argv, 0 ∉ arg)
    (hret : installMultipleApp env argv ≠ .error .waiting) :
    (∃ out, installMultipleApp env argv = .ok out ∧ Orderly env out) ↔
      CreateFits env argv ∧
      ∀ out s, installMultipleApp env argv = .ok out → out.session = some s → Honest env s := by
  rw [← not_overflow_iff hargs]
  cases hrun : installMultipleApp env argv with
  | error f =>
    cases f with
    | waiting => exact absurd hrun hret
    | overflow => simp
  | ok out =>
    rcases installMultipleApp_spec hrun with ⟨hnone, hcode⟩ | ⟨s, hs, hfin⟩
    · refine iff_of_true ⟨out, rfl, ?_, ?_, fun hzero => absurd hzero hcode⟩ ⟨nofun, ?_⟩
      · exact fun s hs => absurd (hnone.symm.trans hs) (by simp)
      · exact fun s hs => absurd (hnone.symm.trans hs) (by simp)
      · rintro out' s heq hs
        cases heq
        exact absurd (hnone.symm.trans hs) (by simp)
    · have hiff := hfin.orderly_iff hs
      constructor
      · rintro ⟨out', heq, ho⟩
        cases heq
        refine ⟨nofun, ?_⟩
        rintro out' s' heq hs'
        cases heq
        cases hs.symm.trans hs'
        exact hiff.mp ho
      · rintro ⟨-, hh⟩
        exact ⟨out, rfl, hiff.mpr (hh out s rfl hs)⟩

def oneApk : List (List Byte) := [text "install-multiple", text "a.apk"]

def device (answer : List Byte) : Env where
  stat _ := some ⟨true, 4⟩
  statAgain _ := some ⟨true, 4⟩
  adbOpen _ := some [.data (text "data"), .data []]
  adbConnect
    | .create _ => some ⟨[.data (text "Success: created [7]"), .data []], []⟩
    | .write _ _ => some ⟨[.data answer, .data []], [.count 3]⟩
    | _ => some ⟨[.data (text "Success"), .data []], []⟩

theorem install_session_committed : ∃ out,
    installMultipleApp (device (text "Success")) oneApk = .ok out ∧ out.code = 0 ∧
      Orderly (device (text "Success")) out := by
  have hrun : installMultipleApp (device (text "Success")) oneApk =
      .ok ⟨0, some ⟨7, [(text "a.apk", 1)]⟩, [.create (text "exec:pm install-create -S 4"),
        .write 1 (text "exec:pm install-write -S 4 7 1_a.apk -"), .commit 7]⟩ := by
    decide +kernel
  have hall : (device (text "Success")).streamsAll ⟨7, [(text "a.apk", 1)]⟩ := by
    intro x hx
    cases mem_singleton.mp hx
    exact ⟨_, _, _, _, _, rfl, rfl, rfl, rfl, ⟨rfl, by decide +kernel⟩, rfl, by decide +kernel⟩
  have hret : installMultipleApp (device (text "Success")) oneApk ≠ .error .waiting := by
    rw [hrun]
    exact nofun
  have hfits : CreateFits (device (text "Success")) oneApk :=
    (not_overflow_iff (by decide)).mp (by rw [hrun]; exact nofun)
  obtain ⟨out, heq, ho⟩ := (install_session_iff (by decide) hret).mpr ⟨hfits, by
    rintro out s heq hs
    cases hrun.symm.trans heq
    cases hs
    exact ⟨fun _ => hall, fun hnot => absurd hall.answersAll hnot⟩⟩
  cases hrun.symm.trans heq
  exact ⟨_, hrun, rfl, ho⟩

/-- The device refuses the APK. The session is abandoned, the device confirms that, and 0 is
returned. -/
theorem install_refused_returns_zero : ∃ out,
    installMultipleApp (device (text "Failure")) oneApk = .ok out ∧ out.code = 0 ∧
      .abandon 7 ∈ out.requests ∧ ¬ Orderly (device (text "Failure")) out := by
  have hrun : installMultipleApp (device (text "Failure")) oneApk =
      .ok ⟨0, some ⟨7, [(text "a.apk", 1)]⟩, [.create (text "exec:pm install-create -S 4"),
        .write 1 (text "exec:pm install-write -S 4 7 1_a.apk -"), .abandon 7]⟩ := by
    decide +kernel
  refine ⟨_, hrun, rfl, by simp, fun ho => ?_⟩
  obtain ⟨s, hs, hmem, -⟩ := ho.zero rfl
  simp at hmem

end Sessions

end PaxAdb.Install
