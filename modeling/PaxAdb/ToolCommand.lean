import PaxAdb.ShellWords
import PaxAdb.StringBuffer
import PaxAdb.SyncClient

/-!
# The command line of a device tool

`pax_tool_command`, `pax_tool_manage` and `pm_command` put a service string together from the
arguments of the command line, each behind a blank and with backslashes before some of its bytes. On
the device a shell takes the string apart again. The count that `strncat` gets is the size of the
buffer less one, whatever is in the buffer already.
-/

namespace PaxAdb.Tool

open Sockets (text)
open Sync (baseName)
open List StringBuffer Shell

section Model

def shouldEscape (c : Byte) : Bool :=
  c = 0x20 || c = 0x27 || c = 0x22 || c = 0x5c || c = 0x28 || c = 0x29

/-- `escape_arg`; an empty argument is kept as a pair of quotes. -/
def escapeArg (s : List Byte) : List Byte :=
  if s = [] then [0x22, 0x22]
  else s.flatMap fun c => if shouldEscape c then [0x5c, c] else [c]

inductive DeviceTool where
  | systool
  | puktools
  deriving DecidableEq, Repr

def DeviceTool.name : DeviceTool → List Byte
  | systool => text "systool"
  | puktools => text "puktools"

def appended (args : List (List Byte)) : List (List Byte) :=
  args.flatMap fun arg => [[0x20], escapeArg arg]

def svc (tool : DeviceTool) (args : List (List Byte)) : StringBuffer :=
  (snprintf 4096 (text "shell:" ++ tool.name)).strncats 4095 (appended args)

def pmBuf (args : List (List Byte)) : StringBuffer :=
  (snprintf 4096 (text "shell:pm")).strncats 4095 (appended args)

def dest (localFile : List Byte) : StringBuffer :=
  snprintf 256 (text "/data/local/tmp/" ++ baseName localFile)

def rmbuf (path : List Byte) : StringBuffer :=
  (snprintf 512 (text "shell:rm ")).strncat (escapeArg path) 511

def fileBased : DeviceTool → List Byte → Bool
  | .systool, sub => sub = text "update" || sub = text "write" || sub = text "install" ||
      sub = text "apn" || sub = text "puk"
  | .puktools, sub => sub = text "install"

/-- What `pax_tool_manage` is asked to do; the first word of its arguments is skipped. -/
inductive Job where
  | usage
  | run (args : List (List Byte))
  /-- the last argument is a local file -/
  | withFile (args : List (List Byte)) (localFile : List Byte)
  deriving DecidableEq, Repr

def job (tool : DeviceTool) : List (List Byte) → Job
  | _ :: sub :: rest =>
      if fileBased tool sub then
        match rest.getLast? with
        | some localFile => .withFile (sub :: rest.dropLast) localFile
        | none => .run [sub]
      else .run (sub :: rest)
  | _ => .usage

def Job.toolArgs : Job → Option (List (List Byte))
  | usage => none
  | run args => some args
  | withFile args localFile => some (args ++ [(dest localFile).string])

/-- The buffers that `pax_tool_manage` fills and their sizes, when the file can be pushed. -/
def Job.buffers (tool : DeviceTool) : Job → List (ℕ × StringBuffer)
  | usage => []
  | run args => [(4096, svc tool args)]
  | withFile args localFile =>
      [(256, dest localFile), (4096, svc tool (args ++ [(dest localFile).string])),
        (512, rmbuf (dest localFile).string)]

end Model

section Texts

def argsText (args : List (List Byte)) : List Byte := args.flatMap fun arg => 0x20 :: escapeArg arg

def commandLine (tool : DeviceTool) (args : List (List Byte)) : List Byte :=
  tool.name ++ argsText args

variable {args : List (List Byte)} {arg : List Byte}

theorem flatten_appended (args : List (List Byte)) : (appended args).flatten = argsText args := by
  induction args with
  | nil => rfl
  | cons arg args ih =>
    rw [appended, flatMap_cons, flatten_append, argsText, flatMap_cons]
    exact congrArg₂ (· ++ ·) (by simp) ih

theorem escapeArg_nul (h : 0 ∉ arg) : 0 ∉ escapeArg arg := by
  rw [escapeArg]
  split
  · decide
  · intro hmem
    obtain ⟨c, hc, hmem⟩ := mem_flatMap.mp hmem
    have hne : c ≠ 0 := ne_of_mem_of_not_mem hc h
    split at hmem
    · simp [hne.symm] at hmem
    · simp [hne.symm] at hmem

/-- A byte that is not escaped is no backslash and no quote, so that what was written can be read
back. -/
theorem escape_cons_inj {c d : Byte} {s s' : List Byte}
    (h : (if shouldEscape c then [0x5c, c] else [c]) ++ s =
      (if shouldEscape d then [0x5c, d] else [d]) ++ s') : c = d ∧ s = s' := by
  split at h
  next hc =>
    split at h
    next hd => simpa using h
    next hd =>
      rw [← (cons.inj h).1] at hd
      exact absurd rfl hd
  next hc =>
    split at h
    next hd =>
      rw [(cons.inj h).1] at hc
      exact absurd rfl hc
    next hd => simpa using h

theorem escapeArg_injective : Function.Injective escapeArg := by
  have hquotes : ∀ {s : List Byte}, s ≠ [] → escapeArg s ≠ [0x22, 0x22] := by
    intro s hs heq
    obtain ⟨c, s, rfl⟩ := exists_cons_of_ne_nil hs
    rw [escapeArg, if_neg hs, flatMap_cons] at heq
    split at heq
    · exact absurd (cons.inj heq).1 (by decide)
    next hc =>
      rw [(cons.inj heq).1] at hc
      exact hc rfl
  intro s s' h
  by_cases hs : s = []
  · by_contra hne
    have hs' : s' ≠ [] := fun hs' => hne (hs.trans hs'.symm)
    rw [hs] at h
    exact hquotes hs' h.symm
  by_cases hs' : s' = []
  · rw [hs'] at h
    exact absurd h (hquotes hs)
  rw [escapeArg, escapeArg, if_neg hs, if_neg hs'] at h
  clear hs hs' hquotes
  induction s generalizing s' with
  | nil =>
    cases s' with
    | nil => rfl
    | cons d s' =>
      rw [flatMap_cons] at h
      split at h <;> cases h
  | cons c s ih =>
    cases s' with
    | nil =>
      rw [flatMap_cons] at h
      split at h <;> cases h
    | cons d s' =>
      rw [flatMap_cons, flatMap_cons] at h
      obtain ⟨rfl, hrest⟩ := escape_cons_inj h
      rw [ih hrest]

theorem appended_nul (h : ∀ arg ∈ args, 0 ∉ arg) : ∀ src ∈ appended args, 0 ∉ src := by
  intro src hsrc
  obtain ⟨arg, harg, hsrc⟩ := mem_flatMap.mp hsrc
  rcases mem_cons.mp hsrc with rfl | hsrc
  · decide
  · rw [mem_singleton.mp hsrc]
    exact escapeArg_nul (h arg harg)

theorem inBounds_appended_iff {first : List Byte} {size : ℕ} (hne : first ≠ []) (hfirst : 0 ∉ first)
    (hlen : first.length < size) (hnul : ∀ arg ∈ args, 0 ∉ arg) :
    ((snprintf size first).strncats (size - 1) (appended args)).InBounds size ↔
      (first ++ argsText args).length < size := by
  have hstring : (snprintf size first).string = first := by
    rw [string_snprintf (by omega) hfirst]
    exact take_of_length_le (by omega)
  rw [inBounds_strncats_iff (appended_nul hnul)
    (inBounds_snprintf (by omega) _) (by rw [hstring]; exact hne)
    (by rw [hstring]; exact hlen) (by omega), hstring, flatten_appended, length_append]

theorem string_appended {first : List Byte} (hfirst : 0 ∉ first)
    (hfits : (first ++ argsText args).length < 4096) (hnul : ∀ arg ∈ args, 0 ∉ arg) :
    ((snprintf 4096 first).strncats 4095 (appended args)).string =
      first ++ argsText args := by
  rw [length_append] at hfits
  rw [string_strncats (appended_nul hnul) (by rw [flatten_appended]; omega),
    string_snprintf (by decide) hfirst, flatten_appended, take_of_length_le (by omega)]

theorem svc_inBounds_iff (tool : DeviceTool) (hnul : ∀ arg ∈ args, 0 ∉ arg) :
    (svc tool args).InBounds 4096 ↔ (text "shell:" ++ commandLine tool args).length < 4096 := by
  rw [svc, inBounds_appended_iff (by cases tool <;> decide) (by cases tool <;> decide)
    (by cases tool <;> decide) hnul, commandLine, append_assoc]

theorem svc_string (tool : DeviceTool) (hnul : ∀ arg ∈ args, 0 ∉ arg)
    (hfits : (svc tool args).InBounds 4096) :
    (svc tool args).string = text "shell:" ++ commandLine tool args := by
  rw [svc_inBounds_iff tool hnul] at hfits
  rw [commandLine, ← append_assoc] at hfits ⊢
  exact string_appended (by cases tool <;> decide) hfits hnul

end Texts

section Bounds

variable {tool : DeviceTool} {argv args : List (List Byte)} {localFile : List Byte}

theorem length_escapeArg {s : List Byte} (h : s ≠ []) :
    (escapeArg s).length = s.length + s.countP shouldEscape := by
  rw [escapeArg, if_neg h]
  clear h
  induction s with
  | nil => rfl
  | cons c s ih =>
    rw [flatMap_cons, length_append, ih, countP_cons, length_cons]
    split
    · rw [length_cons, length_singleton]
      omega
    · rw [length_singleton]
      omega

theorem baseName_nul (h : 0 ∉ localFile) : 0 ∉ baseName localFile := by
  intro hmem
  have hmem := (takeWhile_sublist _).subset (mem_reverse.mp hmem)
  exact h (mem_reverse.mp hmem)

theorem dest_string (h : 0 ∉ localFile) :
    (dest localFile).string = text "/data/local/tmp/" ++ (baseName localFile).take 239 := by
  have hnul : 0 ∉ text "/data/local/tmp/" ++ baseName localFile := by
    rw [mem_append, not_or]
    exact ⟨by decide, baseName_nul h⟩
  rw [dest, string_snprintf (by decide) hnul, take_append]
  rfl

theorem length_escapeArg_dest (h : 0 ∉ localFile) :
    (escapeArg (dest localFile).string).length ≤ 494 := by
  have hne : text "/data/local/tmp/" ++ (baseName localFile).take 239 ≠ [] :=
    append_ne_nil_of_left_ne_nil (by decide) _
  have hescapes : (text "/data/local/tmp/").countP shouldEscape = 0 := by decide
  have hlen : (text "/data/local/tmp/").length = 16 := by decide
  have hcount := countP_le_length (p := shouldEscape) (l := (baseName localFile).take 239)
  have htake := length_take_le 239 (baseName localFile)
  rw [dest_string h, length_escapeArg hne, length_append, countP_append, hescapes, hlen]
  omega

theorem rmbuf_inBounds (h : 0 ∉ localFile) : (rmbuf (dest localFile).string).InBounds 512 := by
  have hfirst : (snprintf 512 (text "shell:rm ")).string.length = 9 := by
    rw [string_snprintf (by decide) (by decide)]
    rfl
  have hlen := length_escapeArg_dest h
  refine inBounds_strncat_iff.mpr
    ⟨inBounds_snprintf (by decide) _, ?_⟩
  omega

theorem rmbuf_string (h : 0 ∉ localFile) :
    (rmbuf (dest localFile).string).string =
      text "shell:rm " ++ escapeArg (dest localFile).string := by
  have hlen := length_escapeArg_dest h
  rw [rmbuf, string_strncat (escapeArg_nul (string_nul _)),
    string_snprintf (by decide) (by decide), take_of_length_le (by decide),
    take_of_length_le (by omega)]

theorem append_dest_nul (hnul : ∀ arg ∈ args, 0 ∉ arg) (localFile : List Byte) :
    ∀ arg ∈ args ++ [(dest localFile).string], 0 ∉ arg := by
  intro arg harg
  rcases mem_append.mp harg with harg | harg
  · exact hnul arg harg
  · rw [mem_singleton.mp harg]
    exact string_nul _

theorem job_cases (tool : DeviceTool) (argv : List (List Byte)) :
    job tool argv = .usage ∨
      (∃ word args, argv = word :: args ∧ job tool argv = .run args) ∨
      ∃ word sub args localFile, argv = word :: sub :: (args ++ [localFile]) ∧
        fileBased tool sub = true ∧ job tool argv = .withFile (sub :: args) localFile := by
  match argv with
  | [] => exact .inl rfl
  | [_] => exact .inl rfl
  | word :: sub :: rest =>
    right
    rw [job]
    split
    next hfile =>
      rcases eq_nil_or_concat rest with rfl | ⟨args, localFile, rfl⟩
      · exact .inl ⟨word, [sub], rfl, rfl⟩
      · refine .inr ⟨word, sub, args, localFile, by rw [concat_eq_append], hfile, ?_⟩
        rw [concat_eq_append, getLast?_concat, dropLast_concat]
    next => exact .inl ⟨word, sub :: rest, rfl, rfl⟩

theorem withFile_nul (hjob : job tool argv = .withFile args localFile)
    (hnul : ∀ arg ∈ argv, 0 ∉ arg) : (∀ arg ∈ args, 0 ∉ arg) ∧ 0 ∉ localFile := by
  rcases job_cases tool argv with husage | ⟨_, _, _, hrun⟩ | ⟨_, _, _, _, rfl, _, hfile⟩
  · cases hjob.symm.trans husage
  · cases hjob.symm.trans hrun
  · cases hjob.symm.trans hfile
    exact ⟨fun arg harg => hnul arg (by simp at harg ⊢; tauto), hnul _ (by simp)⟩

/-- The buffers for a service are filled within their bounds exactly when the whole text fits; those
for the file always are. -/
theorem builders_in_bounds_iff (tool : DeviceTool) (argv : List (List Byte))
    (hnul : ∀ arg ∈ argv, 0 ∉ arg) :
    ((svc tool argv).InBounds 4096 ↔ (text "shell:" ++ commandLine tool argv).length < 4096) ∧
      ((∀ x ∈ (job tool argv).buffers tool, x.2.InBounds x.1) ↔
        ∀ args ∈ (job tool argv).toolArgs, (text "shell:" ++ commandLine tool args).length < 4096) ∧
      ((pmBuf argv).InBounds 4096 ↔ (text "shell:pm" ++ argsText argv).length < 4096) := by
  refine ⟨svc_inBounds_iff tool hnul, ?_,
    inBounds_appended_iff (by decide) (by decide) (by decide) hnul⟩
  rcases job_cases tool argv with hjob | ⟨word, args, rfl, hjob⟩ |
    ⟨word, sub, args, localFile, rfl, -, hjob⟩
  · rw [hjob]
    exact iff_of_true nofun nofun
  · rw [hjob]
    simp only [Job.buffers, Job.toolArgs, mem_singleton, forall_eq, Option.mem_some_iff, forall_eq']
    exact svc_inBounds_iff tool fun arg harg => hnul arg (mem_cons_of_mem _ harg)
  · obtain ⟨hsub, hfile⟩ := withFile_nul hjob hnul
    have hargs := append_dest_nul hsub localFile
    rw [hjob]
    simp only [Job.buffers, Job.toolArgs, mem_cons, not_mem_nil, or_false,
      forall_eq_or_imp, forall_eq, Option.mem_some_iff, forall_eq']
    rw [svc_inBounds_iff tool hargs]
    exact ⟨fun h => h.2.1, fun h => ⟨inBounds_snprintf (by decide) _, h, rmbuf_inBounds hfile⟩⟩

/-- The buffers for a file with a blank in its name. -/
theorem builders_in_bounds_file :
    ((job .systool [text "systool", text "install", text "/tmp/a b"]).buffers .systool).length = 3 ∧
      ∀ x ∈ (job .systool [text "systool", text "install", text "/tmp/a b"]).buffers .systool,
        x.2.InBounds x.1 := by
  refine ⟨rfl, (builders_in_bounds_iff .systool [text "systool", text "install", text "/tmp/a b"]
    (by decide)).2.1.mpr ?_⟩
  decide

def longArgs (n : ℕ) : List (List Byte) := [replicate n 0x61]

theorem longArgs_nul (n : ℕ) : ∀ arg ∈ longArgs n, 0 ∉ arg := by
  intro arg harg hmem
  rw [mem_singleton.mp harg] at hmem
  exact absurd (mem_replicate.mp hmem).2 (by decide)

theorem length_longArgs {n : ℕ} (h : n ≠ 0) :
    (text "shell:" ++ commandLine .systool (longArgs n)).length = 14 + n := by
  have hne : replicate n (0x61 : Byte) ≠ [] := by simpa using h
  have hplain : (replicate n (0x61 : Byte)).countP shouldEscape = 0 := by
    rw [countP_replicate]
    rfl
  rw [commandLine, argsText, longArgs, flatMap_singleton, length_append,
    length_append, length_cons, length_escapeArg hne, hplain, length_replicate]
  change 6 + (7 + (n + 0 + 1)) = 14 + n
  omega

/-- One argument of 4096 bytes is written beyond the end of the buffer. -/
theorem builder_overruns : ¬(svc .systool (longArgs 4096)).InBounds 4096 := by
  rw [svc_inBounds_iff .systool (longArgs_nul 4096), length_longArgs (by decide)]
  decide

end Bounds

section Words

variable {args : List (List Byte)} {arg : List Byte} {c : Byte}

/-- The bytes that mean something to a shell and are not escaped: `|`, `&`, `;`, `<`, `>`, `$`, a
backquote, a tab and a newline. -/
def unescaped : List Byte := [0x7c, 0x26, 0x3b, 0x3c, 0x3e, 0x24, 0x60, 0x09, 0x0a]

def quoting (arg : List Byte) : Shell.Word := arg.map fun c => (c, shouldEscape c)

/-- An argument that the shell hands on as it is: it has no byte with a meaning in it, does not
start a comment and is no pattern. -/
def Harmless (arg : List Byte) : Prop :=
  (∀ c ∈ arg, c ∉ unescaped) ∧ arg.head? ≠ some 0x23 ∧ (quoting arg).Inert

instance : DecidablePred Harmless := fun _ => inferInstanceAs (Decidable (_ ∧ _))

def pieces (arg : List Byte) : List Shell.Piece :=
  if arg = [] then [.quotes]
  else arg.map fun c => if shouldEscape c then .escaped c else .bare c

theorem ordinary_or_iff (c : Byte) :
    Shell.Ordinary c ∨ shouldEscape c = true ↔ c ∉ unescaped := by
  have hall : ∀ n : Fin 256, Shell.Ordinary (UInt8.ofNat n) ∨ shouldEscape (UInt8.ofNat n) = true ↔
      UInt8.ofNat n ∉ unescaped := by decide +kernel
  have hc := hall ⟨c.toNat, c.toNat_lt⟩
  rwa [UInt8.ofNat_toNat] at hc

theorem lineOf_pieces (arg : List Byte) : lineOf (pieces arg) = escapeArg arg := by
  rw [pieces, escapeArg]
  split
  · rfl
  · rw [lineOf, flatMap_map]
    refine flatMap_congr fun c _ => ?_
    split <;> rfl

theorem wordOf_pieces (arg : List Byte) : wordOf (pieces arg) = quoting arg := by
  rw [pieces]
  split
  next h =>
    rw [h]
    rfl
  · rw [wordOf, quoting, flatMap_map, map_eq_flatMap]
    refine flatMap_congr fun c _ => ?_
    cases hescape : shouldEscape c with
    | true => rfl
    | false => rfl

theorem text_quoting (arg : List Byte) : (quoting arg).text = arg := by
  rw [Shell.Word.text, quoting, map_map]
  exact map_id _

theorem pieces_ne_nil (arg : List Byte) : pieces arg ≠ [] := by
  rw [pieces]
  split
  · exact cons_ne_nil _ _
  next h => exact fun hmap => h (map_eq_nil_iff.mp hmap)

theorem mem_pieces {p : Shell.Piece} (h : p ∈ pieces arg) :
    p = .quotes ∨ ∃ c ∈ arg, p = if shouldEscape c then .escaped c else .bare c := by
  rw [pieces] at h
  split at h
  · exact .inl (mem_singleton.mp h)
  · obtain ⟨c, hc, rfl⟩ := mem_map.mp h
    exact .inr ⟨c, hc, rfl⟩

theorem shouldEscape_ne (h : shouldEscape c = true) : c ≠ 0x0a := by
  rintro rfl
  cases h

theorem pieces_part (h : ∀ c ∈ arg, c ∉ unescaped) : ∀ p ∈ pieces arg, p.Part := by
  intro p hp
  rcases mem_pieces hp with rfl | ⟨c, hc, rfl⟩
  · trivial
  · split
    next hescape => exact shouldEscape_ne hescape
    next hescape => exact ((ordinary_or_iff c).mpr (h c hc)).resolve_right hescape

theorem pieces_proper (arg : List Byte) :
    ∀ p ∈ pieces arg, p.Proper ∧ p.Escapes (shouldEscape · = true) := by
  intro p hp
  rcases mem_pieces hp with rfl | ⟨c, hc, rfl⟩
  · exact ⟨trivial, trivial⟩
  · split
    next hescape => exact ⟨shouldEscape_ne hescape, hescape⟩
    next hescape =>
      refine ⟨fun hquote => hescape ?_, trivial⟩
      simp only [Shell.IsQuote, mem_cons, not_mem_nil, or_false] at hquote
      rcases hquote with rfl | rfl | rfl <;> rfl

theorem head_pieces (arg : List Byte) :
    (pieces arg).head? = some (.bare 0x23) ↔ arg.head? = some 0x23 := by
  cases arg with
  | nil => exact iff_of_false nofun nofun
  | cons c arg =>
    rw [pieces, if_neg (cons_ne_nil _ _), map_cons, head?_cons, head?_cons,
      Option.some_inj, Option.some_inj]
    split
    next hescape =>
      refine iff_of_false nofun ?_
      rintro rfl
      cases hescape
    next => exact Shell.Piece.bare.injEq c 0x23 ▸ Iff.rfl

end Words

section Arrival

variable {tool : DeviceTool} {args : List (List Byte)}

def linePieces (tool : DeviceTool) (args : List (List Byte)) : List Shell.Piece :=
  tool.name.map .bare ++ args.flatMap fun arg => .bare 0x20 :: pieces arg

theorem lineOf_bare (s : List Byte) : lineOf (s.map .bare) = s := by
  rw [lineOf, flatMap_map]
  exact flatMap_singleton' s

theorem lineOf_linePieces (tool : DeviceTool) (args : List (List Byte)) :
    lineOf (linePieces tool args) = commandLine tool args := by
  rw [linePieces, lineOf, flatMap_append, ← lineOf, lineOf_bare, commandLine,
    argsText, flatMap_assoc]
  refine congrArg (tool.name ++ ·) (flatMap_congr fun arg _ => ?_)
  rw [flatMap_cons, ← lineOf, lineOf_pieces]
  rfl

theorem name_ordinary (tool : DeviceTool) : ∀ c ∈ tool.name, Shell.Ordinary c := by
  cases tool <;> decide +kernel

theorem linePieces_proper (tool : DeviceTool) (args : List (List Byte)) :
    ∀ p ∈ linePieces tool args, p.Proper ∧ p.Escapes (shouldEscape · = true) := by
  intro p hp
  rcases mem_append.mp hp with hp | hp
  · obtain ⟨c, hc, rfl⟩ := mem_map.mp hp
    exact ⟨(name_ordinary tool c hc).2.2.2, trivial⟩
  · obtain ⟨arg, _, hp⟩ := mem_flatMap.mp hp
    rcases mem_cons.mp hp with rfl | hp
    · have hblank : ¬Shell.IsQuote 0x20 := by decide
      exact ⟨hblank, trivial⟩
    · exact pieces_proper arg p hp

theorem words_unescaped {ts : List Shell.Token}
    (h : Shell.Reader.start.tokens (commandLine tool args) = some ts) {w : Shell.Word}
    (hw : .word w ∈ ts) : ∀ c ∈ w.text, c ∉ unescaped := by
  rw [← lineOf_linePieces] at h
  have hgenuine := Shell.Reader.tokens_genuine (linePieces_proper tool args)
    Shell.Reader.sound_start h w hw
  intro c hc
  obtain ⟨i, hi, rfl⟩ := mem_map.mp hc
  rw [← ordinary_or_iff]
  exact (hgenuine i hi).imp (·.2) (·.2)

theorem commandLine_tokens (tool : DeviceTool) (h : ∀ arg ∈ args, ∀ c ∈ arg, c ∉ unescaped) :
    Shell.Reader.start.tokens (commandLine tool args) =
      some ((wordOf (tool.name.map .bare) ::
        (args.takeWhile (·.head? ≠ some 0x23)).map quoting).map .word) := by
  have hname : ∀ p ∈ tool.name.map Shell.Piece.bare, p.Part := by
    intro p hp
    obtain ⟨c, hc, rfl⟩ := mem_map.mp hp
    exact name_ordinary tool c hc
  have hwords : ∀ ps ∈ args.map pieces, ps ≠ [] ∧ ∀ p ∈ ps, p.Part := by
    intro ps hps
    obtain ⟨arg, harg, rfl⟩ := mem_map.mp hps
    exact ⟨pieces_ne_nil arg, pieces_part (h arg harg)⟩
  have hline : commandLine tool args = lineOf (tool.name.map .bare) ++
      (args.map pieces).flatMap fun ps => 0x20 :: lineOf ps := by
    rw [commandLine, lineOf_bare, flatMap_map, argsText]
    simp only [lineOf_pieces]
  have hfirst := Shell.Reader.tokens_word none hname (by cases tool <;> decide)
    (fun _ => by cases tool <;> decide)
    ((args.map pieces).flatMap fun ps => 0x20 :: lineOf ps)
  have hrest := Shell.Reader.tokens_words (wordOf (tool.name.map .bare)) hwords
  rw [hline]
  refine hfirst.trans (hrest.trans ?_)
  rw [takeWhile_map, map_map]
  have htake : args.takeWhile ((fun ps => decide (ps.head? ≠ some (.bare 0x23))) ∘ pieces) =
      args.takeWhile (·.head? ≠ some 0x23) := by
    congr 1
    funext arg
    exact decide_eq_decide.mpr (not_congr (head_pieces arg))
  have hquoting : wordOf ∘ pieces = quoting := funext wordOf_pieces
  rw [htake, hquoting]

theorem word_text_name (tool : DeviceTool) :
    (wordOf (tool.name.map .bare)).text = tool.name ∧
      (wordOf (tool.name.map .bare)).Inert := by
  cases tool <;> decide

theorem map_text_quoting (args : List (List Byte)) :
    (args.map quoting).map Shell.Word.text = args := by
  rw [map_map]
  exact (map_congr_left fun arg _ => text_quoting arg).trans (map_id _)

theorem sees_commandLine_iff (tool : DeviceTool) (args : List (List Byte)) :
    Shell.Sees (commandLine tool args) (tool.name :: args) ↔ ∀ arg ∈ args, Harmless arg := by
  obtain ⟨hname, hinertName⟩ := word_text_name tool
  constructor
  · rintro ⟨ts, ws, htokens, htrim, htexts, hinert⟩
    have hbytes : ∀ arg ∈ args, ∀ c ∈ arg, c ∉ unescaped := by
      intro arg harg
      have hmem : arg ∈ ws.map Shell.Word.text := by
        rw [htexts]
        exact mem_cons_of_mem _ harg
      obtain ⟨w, hw, rfl⟩ := mem_map.mp hmem
      have hword : Shell.Token.word w ∈ trim ts := by
        rw [htrim]
        exact mem_map_of_mem hw
      exact words_unescaped htokens (mem_of_mem_trim hword)
    -- so the words are known, and none is missing
    rw [commandLine_tokens tool hbytes, Option.some_inj] at htokens
    rw [← htokens, trim_words] at htrim
    have hws := (map_injective_iff.mpr fun _ _ => Shell.Token.word.inj) htrim
    rw [← hws, map_cons, hname, map_text_quoting] at htexts
    have htake := (cons.inj htexts).2
    rw [htake] at hws
    intro arg harg
    refine ⟨hbytes arg harg, ?_, ?_⟩
    · simpa using takeWhile_eq_self_iff.mp htake arg harg
    · refine hinert _ ?_
      rw [← hws]
      exact mem_cons_of_mem _ (mem_map_of_mem harg)
  · intro h
    have htake : args.takeWhile (·.head? ≠ some 0x23) = args :=
      takeWhile_eq_self_iff.mpr fun arg harg => by simpa using (h arg harg).2.1
    have htokens := commandLine_tokens tool fun arg harg => (h arg harg).1
    rw [htake] at htokens
    refine ⟨_, _, htokens, trim_words _, ?_, ?_⟩
    · rw [map_cons, hname, map_text_quoting]
    · intro w hw
      rcases mem_cons.mp hw with rfl | hw
      · exact hinertName
      · obtain ⟨arg, harg, rfl⟩ := mem_map.mp hw
        exact (h arg harg).2.2

/-- The shell of the device sees the arguments as they were given exactly when they are harmless. -/
theorem arguments_arrive_iff (tool : DeviceTool) (args : List (List Byte))
    (hnul : ∀ arg ∈ args, 0 ∉ arg) (hfits : (svc tool args).InBounds 4096) :
    Shell.Sees ((svc tool args).string.drop (text "shell:").length) (tool.name :: args) ↔
      ∀ arg ∈ args, Harmless arg := by
  rw [svc_string tool hnul hfits, drop_left]
  exact sees_commandLine_iff tool args

/-- An argument with blanks and brackets in it, and an empty one. -/
theorem arguments_arrive_quoted :
    Shell.Sees ((svc .systool [text "a (b)", []]).string.drop (text "shell:").length)
      [text "systool", text "a (b)", []] := by
  refine (arguments_arrive_iff .systool [text "a (b)", []] (by decide) (by decide)).mpr ?_
  decide +kernel

/-- The semicolon ends the command. -/
theorem arguments_split :
    (svc .systool [text "a;b"]).InBounds 4096 ∧
      Shell.Reader.start.tokens ((svc .systool [text "a;b"]).string.drop (text "shell:").length) =
        some [.word ((text "systool").map (·, false)), .word [(0x61, false)], .operator 0x3b,
          .word [(0x62, false)]] ∧
      ¬Shell.Sees ((svc .systool [text "a;b"]).string.drop (text "shell:").length)
        [text "systool", text "a;b"] := by
  have htokens : Shell.Reader.start.tokens
      ((svc .systool [text "a;b"]).string.drop (text "shell:").length) =
        some [.word ((text "systool").map (·, false)), .word [(0x61, false)], .operator 0x3b,
          .word [(0x62, false)]] := by decide
  refine ⟨by decide, htokens, ?_⟩
  rintro ⟨ts, ws, hts, htrim, -⟩
  rw [htokens, Option.some_inj] at hts
  have hmem : Shell.Token.operator 0x3b ∈ ws.map .word := by
    rw [← htrim, ← hts]
    decide
  obtain ⟨w, -, hw⟩ := mem_map.mp hmem
  cases hw

end Arrival

end PaxAdb.Tool
