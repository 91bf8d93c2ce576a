import Mathlib.Data.List.DropRight
import Mathlib.Tactic

/-!
# How a POSIX shell reads a command line

Token recognition, byte by byte. A word is kept with the quoting of each of its bytes, since this
decides what happens to the word later on. Parameter expansion and command substitution are not
followed: a line that asks for them is not read.
-/

namespace Shell

open List

section Reader

/-- A byte of a word, and whether it is quoted. -/
abbrev Item := UInt8 × Bool

abbrev Word := List Item

def Word.text (w : Word) : List UInt8 := w.map (·.1)

/-- An operator of two bytes is two tokens here. -/
inductive Token where
  | word (w : Word)
  | operator (b : UInt8)
  deriving DecidableEq, Repr

inductive Mode where
  | plain
  | escaped
  | single
  | double
  | doubleEscaped
  | comment
  deriving DecidableEq, Repr

structure Reader where
  mode : Mode
  current : Option Word
  deriving DecidableEq, Repr

def IsBlank (b : UInt8) : Prop := b = 0x20 ∨ b = 0x09

instance : DecidablePred IsBlank := fun _ => inferInstanceAs (Decidable (_ ∨ _))

/-- A byte that is or starts an operator: `|`, `&`, `;`, `<`, `>`, the parentheses, a newline. -/
def IsOperator (b : UInt8) : Prop := b ∈ [0x7c, 0x26, 0x3b, 0x3c, 0x3e, 0x28, 0x29, 0x0a]

instance : DecidablePred IsOperator := fun _ => inferInstanceAs (Decidable (_ ∈ _))

def IsExpansion (b : UInt8) : Prop := b = 0x24 ∨ b = 0x60

instance : DecidablePred IsExpansion := fun _ => inferInstanceAs (Decidable (_ ∨ _))

def IsQuote (b : UInt8) : Prop := b ∈ [0x5c, 0x27, 0x22]

instance : DecidablePred IsQuote := fun _ => inferInstanceAs (Decidable (_ ∈ _))

def Ordinary (b : UInt8) : Prop :=
  ¬IsBlank b ∧ ¬IsOperator b ∧ ¬IsExpansion b ∧ ¬IsQuote b

instance : DecidablePred Ordinary := fun _ => inferInstanceAs (Decidable (_ ∧ _))

namespace Reader

def start : Reader := ⟨.plain, none⟩

def word (r : Reader) : Word := r.current.getD []

def push (r : Reader) (mode : Mode) (items : Word) : Reader := ⟨mode, some (r.word ++ items)⟩

def flush (r : Reader) : List Token := r.current.toList.map .word

def step (r : Reader) (b : UInt8) : Option (List Token × Reader) :=
  match r.mode with
  | .plain =>
      if b = 0x5c then some ([], { r with mode := .escaped })
      else if b = 0x27 then some ([], r.push .single [])
      else if b = 0x22 then some ([], r.push .double [])
      else if IsExpansion b then none
      else if IsBlank b then some (r.flush, start)
      else if IsOperator b then some (r.flush ++ [.operator b], start)
      else if b = 0x23 ∧ r.current = none then some ([], ⟨.comment, none⟩)
      else some ([], r.push .plain [(b, false)])
  | .escaped =>
      -- a backslash and a newline are taken out of the line
      if b = 0x0a then some ([], { r with mode := .plain })
      else some ([], r.push .plain [(b, true)])
  | .single =>
      if b = 0x27 then some ([], { r with mode := .plain })
      else some ([], r.push .single [(b, true)])
  | .double =>
      if b = 0x22 then some ([], { r with mode := .plain })
      else if b = 0x5c then some ([], { r with mode := .doubleEscaped })
      else if IsExpansion b then none
      else some ([], r.push .double [(b, true)])
  | .doubleEscaped =>
      if b = 0x0a then some ([], { r with mode := .double })
      else if IsExpansion b ∨ b = 0x22 ∨ b = 0x5c then some ([], r.push .double [(b, true)])
      else some ([], r.push .double [(0x5c, true), (b, true)])
  | .comment =>
      if b = 0x0a then some ([.operator b], start) else some ([], r)

def finish (r : Reader) : Option (List Token) :=
  match r.mode with
  | .plain => some r.flush
  | .comment => some []
  | _ => none

def tokens : Reader → List UInt8 → Option (List Token)
  | r, [] => r.finish
  | r, b :: line => do
      let (ts, r') ← r.step b
      let rest ← tokens r' line
      some (ts ++ rest)

end Reader

end Reader

section Command

def trim (ts : List Token) : List Token :=
  (ts.dropWhile (· = .operator 0x0a)).rdropWhile (· = .operator 0x0a)

def Word.closes : Word → Bool
  | [] => false
  | (b, quoted) :: w =>
      if b = 0x2f then false else if b = 0x5d ∧ quoted = false then true else Word.closes w

/-- What follows an opening bracket makes it a bracket expression: the first byte in it, behind an
exclamation mark, may be a closing bracket itself. -/
def Word.bracket : Word → Bool
  | [] => false
  | x :: w =>
      match (if x = (0x21, false) then w else x :: w) with
      | [] => false
      | y :: w => y.1 ≠ 0x2f && Word.closes w

def Word.hasPattern : Word → Bool
  | [] => false
  | (b, quoted) :: w =>
      (quoted = false && (b = 0x2a || b = 0x3f || b = 0x5b && Word.bracket w)) ||
        Word.hasPattern w

def Word.hasTilde : Word → Bool
  | [] => false
  | x :: w => x = (0x7e, false) && (w.takeWhile (· ≠ (0x2f, false))).all (·.2 = false)

def Word.Inert (w : Word) : Prop := w.hasPattern = false ∧ w.hasTilde = false

instance : DecidablePred Word.Inert := fun _ => inferInstanceAs (Decidable (_ ∧ _))

/-- The line is one simple command with these words, whatever files there are. -/
def Sees (line : List UInt8) (words : List (List UInt8)) : Prop :=
  ∃ (ts : List Token) (ws : List Word), Reader.start.tokens line = some ts ∧
    trim ts = ws.map .word ∧ ws.map Word.text = words ∧ ∀ w ∈ ws, w.Inert

end Command

section Trim

variable {ts : List Token}

theorem dropWhile_words (ws : List Word) :
    (ws.map Token.word).dropWhile (· = .operator 0x0a) = ws.map .word := by
  cases ws with
  | nil => rfl
  | cons w ws => rfl

theorem trim_words (ws : List Word) : trim (ws.map .word) = ws.map .word := by
  rw [trim, dropWhile_words, rdropWhile, ← map_reverse, dropWhile_words,
    map_reverse, reverse_reverse]

theorem mem_of_mem_trim {t : Token} (h : t ∈ trim ts) : t ∈ ts :=
  (dropWhile_sublist _).subset ((List.rdropWhile_prefix _ _).subset h)

end Trim

section Pieces

/-- A part of a line that is written with backslashes. -/
inductive Piece where
  | bare (b : UInt8)
  | escaped (b : UInt8)
  /-- an empty pair of double quotes -/
  | quotes
  deriving DecidableEq, Repr

namespace Piece

def bytes : Piece → List UInt8
  | bare b => [b]
  | escaped b => [0x5c, b]
  | quotes => [0x22, 0x22]

def items : Piece → Word
  | bare b => [(b, false)]
  | escaped b => [(b, true)]
  | quotes => []

/-- A bare byte opens no quotes, and what is escaped belongs to a word. -/
def Proper : Piece → Prop
  | bare b => ¬IsQuote b
  | escaped b => b ≠ 0x0a
  | quotes => True

def Part : Piece → Prop
  | bare b => Ordinary b
  | escaped b => b ≠ 0x0a
  | quotes => True

theorem Part.newline_not_mem {p : Piece} (h : p.Part) : 0x0a ∉ p.bytes := by
  cases p with
  | bare b =>
    intro hmem
    rw [← mem_singleton.mp hmem] at h
    exact h.2.1 (by decide)
  | escaped b =>
    intro hmem
    rcases mem_cons.mp hmem with heq | hmem
    · exact absurd heq (by decide)
    · exact h (mem_singleton.mp hmem).symm
  | quotes => decide

end Piece

def lineOf (ps : List Piece) : List UInt8 := ps.flatMap Piece.bytes

def wordOf (ps : List Piece) : Word := ps.flatMap Piece.items

theorem newline_not_mem_lineOf {ps : List Piece} (h : ∀ p ∈ ps, p.Part) : 0x0a ∉ lineOf ps := by
  intro hmem
  obtain ⟨p, hp, hmem⟩ := mem_flatMap.mp hmem
  exact (h p hp).newline_not_mem hmem

namespace Reader

variable {r r' : Reader} {b : UInt8} {ts : List Token}

theorem tokens_cons (h : r.step b = some (ts, r')) (line : List UInt8) :
    r.tokens (b :: line) = (r'.tokens line).map (ts ++ ·) := by
  rw [tokens, h]
  cases hrest : r'.tokens line with
  | none | some => simp [hrest]

theorem tokens_cons_nil (h : r.step b = some ([], r')) (line : List UInt8) :
    r.tokens (b :: line) = r'.tokens line := by
  rw [tokens_cons h]
  exact Option.map_id'

theorem tokens_escaped (cur : Option Word) (h : b ≠ 0x0a) (line : List UInt8) :
    tokens ⟨.plain, cur⟩ (0x5c :: b :: line) =
      tokens (push ⟨.plain, cur⟩ .plain [(b, true)]) line := by
  have hstep : step ⟨.escaped, cur⟩ b = some ([], push ⟨.plain, cur⟩ .plain [(b, true)]) :=
    if_neg h
  rw [tokens_cons_nil rfl, tokens_cons_nil hstep]

theorem tokens_quotes (cur : Option Word) (line : List UInt8) :
    tokens ⟨.plain, cur⟩ (0x22 :: 0x22 :: line) = tokens (push ⟨.plain, cur⟩ .plain []) line := by
  rw [tokens_cons_nil rfl, tokens_cons_nil rfl]
  rfl

theorem tokens_comment {bytes : List UInt8} (h : 0x0a ∉ bytes) (line : List UInt8) :
    tokens ⟨.comment, none⟩ (bytes ++ line) = tokens ⟨.comment, none⟩ line := by
  induction bytes with
  | nil => rfl
  | cons b bytes ih =>
    have hb : b ≠ 0x0a := fun hb => h (by rw [hb]; exact mem_cons_self)
    have hstep : step ⟨.comment, none⟩ b = some ([], ⟨.comment, none⟩) := if_neg hb
    rw [cons_append, tokens_cons_nil hstep, ih fun hmem => h (mem_cons_of_mem _ hmem)]

theorem step_ordinary (cur : Option Word) (h : Ordinary b) (hcomment : cur = none → b ≠ 0x23) :
    step ⟨.plain, cur⟩ b = some ([], push ⟨.plain, cur⟩ .plain [(b, false)]) := by
  obtain ⟨hblank, hoperator, hexpansion, hquote⟩ := h
  simp only [IsQuote, mem_cons, not_mem_nil, or_false, not_or] at hquote
  obtain ⟨hbackslash, hsingle, hdouble⟩ := hquote
  simp only [step, if_neg hbackslash, if_neg hsingle, if_neg hdouble, if_neg hexpansion,
    if_neg hblank, if_neg hoperator]
  exact if_neg fun hand => hcomment hand.2 hand.1

theorem push_push (r : Reader) (mode mode' : Mode) (w w' : Word) :
    (r.push mode w).push mode' w' = r.push mode' (w ++ w') := by
  rw [push, push, push, word, Option.getD_some, append_assoc]

/-- The pieces of a word are put together, unless the first starts a comment. -/
theorem tokens_word {ps : List Piece} (cur : Option Word) (hps : ∀ p ∈ ps, p.Part) (hne : ps ≠ [])
    (hcomment : cur = none → ps.head? ≠ some (.bare 0x23)) (line : List UInt8) :
    tokens ⟨.plain, cur⟩ (lineOf ps ++ line) =
      tokens (push ⟨.plain, cur⟩ .plain (wordOf ps)) line := by
  induction ps generalizing cur with
  | nil => exact absurd rfl hne
  | cons p ps ih =>
    have hp : p.Part := hps p mem_cons_self
    have hfirst : tokens ⟨.plain, cur⟩ (p.bytes ++ (lineOf ps ++ line)) =
        tokens (push ⟨.plain, cur⟩ .plain p.items) (lineOf ps ++ line) := by
      cases p with
      | bare b =>
        refine tokens_cons_nil (step_ordinary cur hp fun hcur hb => hcomment hcur ?_) _
        rw [hb]
        rfl
      | escaped b => exact tokens_escaped cur hp _
      | quotes => exact tokens_quotes cur _
    rw [lineOf, flatMap_cons, append_assoc]
    refine hfirst.trans ?_
    by_cases hnil : ps = []
    · rw [hnil, wordOf, flatMap_singleton]
      rfl
    · have hrest := ih (some (word ⟨.plain, cur⟩ ++ p.items))
        (fun q hq => hps q (mem_cons_of_mem _ hq)) hnil nofun
      rw [wordOf, flatMap_cons, ← push_push _ .plain]
      exact hrest

/-- A line of words with a blank before each: the shell sees those before the first comment. -/
theorem tokens_words {words : List (List Piece)} (w : Word)
    (h : ∀ ps ∈ words, ps ≠ [] ∧ ∀ p ∈ ps, p.Part) :
    tokens ⟨.plain, some w⟩ (words.flatMap fun ps => 0x20 :: lineOf ps) =
      some ((w :: (words.takeWhile (·.head? ≠ some (.bare 0x23))).map wordOf).map .word) := by
  induction words generalizing w with
  | nil => rfl
  | cons ps words ih =>
    obtain ⟨hne, hps⟩ := h ps mem_cons_self
    have hrest := ih (wordOf ps) fun x hx => h x (mem_cons_of_mem _ hx)
    have hblank : step ⟨.plain, some w⟩ 0x20 = some ([.word w], start) := rfl
    rw [flatMap_cons, cons_append, tokens_cons hblank]
    by_cases hcomment : ps.head? = some (.bare 0x23)
    · -- what follows on the line has no newline in it
      have hline : 0x0a ∉ lineOf ps ++ words.flatMap fun ps => 0x20 :: lineOf ps := by
        simp only [mem_append, mem_flatMap, mem_cons, not_or, not_exists, not_and]
        refine ⟨newline_not_mem_lineOf hps, fun x hx => ⟨by decide, ?_⟩⟩
        exact newline_not_mem_lineOf (h x (mem_cons_of_mem _ hx)).2
      obtain ⟨rest, hbytes⟩ : ∃ rest, lineOf ps ++ (words.flatMap fun ps => 0x20 :: lineOf ps) =
          0x23 :: rest := by
        obtain ⟨ps', rfl⟩ := head?_eq_some_iff.mp hcomment
        exact ⟨_, rfl⟩
      have hstep : step start 0x23 = some ([], ⟨.comment, none⟩) := rfl
      rw [hbytes] at hline ⊢
      have hrest : 0x0a ∉ rest := fun hmem => hline (mem_cons_of_mem _ hmem)
      have hend := tokens_comment hrest []
      rw [append_nil] at hend
      rw [takeWhile_cons_of_neg (by simpa using hcomment), tokens_cons_nil hstep, hend]
      rfl
    · rw [takeWhile_cons_of_pos (by simpa using hcomment), start,
        tokens_word none hps hne fun _ => hcomment]
      change (tokens ⟨.plain, some (wordOf ps)⟩ _).map _ = _
      rw [hrest]
      rfl

end Reader

end Pieces

section Items

variable {E : UInt8 → Prop}

def Genuine (E : UInt8 → Prop) (i : Item) : Prop :=
  i.2 = false ∧ Ordinary i.1 ∨ i.2 = true ∧ E i.1

def Piece.Escapes (E : UInt8 → Prop) : Piece → Prop
  | .escaped b => E b
  | _ => True

namespace Reader

variable {r r' : Reader} {b : UInt8} {ts : List Token} {line : List UInt8}

def Sound (E : UInt8 → Prop) (r : Reader) : Prop :=
  (r.mode = .plain ∨ r = ⟨.comment, none⟩) ∧ ∀ i ∈ r.word, Genuine E i

theorem sound_start : Sound E start := ⟨.inl rfl, nofun⟩

theorem sound_comment : Sound E ⟨.comment, none⟩ := ⟨.inr rfl, nofun⟩

theorem Sound.push (h : r.Sound E) {w : Word} (hw : ∀ i ∈ w, Genuine E i) :
    (r.push .plain w).Sound E := by
  refine ⟨.inl rfl, fun i hi => ?_⟩
  rcases mem_append.mp hi with hi | hi
  · exact h.2 i hi
  · exact hw i hi

theorem Sound.flush (h : r.Sound E) {w : Word} (hw : .word w ∈ r.flush) :
    ∀ i ∈ w, Genuine E i := by
  obtain ⟨mode, cur⟩ := r
  cases cur with
  | none => cases hw
  | some w' =>
    cases mem_singleton.mp hw
    exact h.2

theorem tokens_cons_some (h : r.tokens (b :: line) = some ts) :
    ∃ ts₁ ts₂ r', r.step b = some (ts₁, r') ∧ r'.tokens line = some ts₂ ∧ ts = ts₁ ++ ts₂ := by
  cases hstep : r.step b with
  | none => simp [tokens, hstep] at h
  | some x =>
    obtain ⟨ts₁, r'⟩ := x
    rw [tokens_cons hstep] at h
    obtain ⟨ts₂, hrest, rfl⟩ := Option.map_eq_some_iff.mp h
    exact ⟨ts₁, ts₂, r', rfl, hrest, rfl⟩

theorem Sound.step (h : r.Sound E) (hquote : ¬IsQuote b) (hstep : r.step b = some (ts, r')) :
    r'.Sound E ∧ ∀ w, .word w ∈ ts → ∀ i ∈ w, Genuine E i := by
  obtain ⟨hplain | rfl, hword⟩ := h
  · have hnot : b ≠ 0x5c ∧ b ≠ 0x27 ∧ b ≠ 0x22 := by
      simpa [IsQuote] using hquote
    simp only [Reader.step, hplain, if_neg hnot.1, if_neg hnot.2.1, if_neg hnot.2.2] at hstep
    split at hstep
    · cases hstep
    next hexpansion =>
      split at hstep
      · cases hstep
        exact ⟨sound_start, fun w hw => Sound.flush ⟨.inl hplain, hword⟩ hw⟩
      next hblank =>
        split at hstep
        · cases hstep
          refine ⟨sound_start, fun w hw => ?_⟩
          rcases mem_append.mp hw with hw | hw
          · exact Sound.flush ⟨.inl hplain, hword⟩ hw
          · cases mem_singleton.mp hw
        next hoperator =>
          split at hstep
          · cases hstep
            exact ⟨sound_comment, nofun⟩
          · cases hstep
            refine ⟨Sound.push ⟨.inl hplain, hword⟩ fun i hi => ?_, nofun⟩
            rw [mem_singleton.mp hi]
            exact .inl ⟨rfl, hblank, hoperator, hexpansion, hquote⟩
  · rw [Reader.step] at hstep
    dsimp only at hstep
    split at hstep
    · cases hstep
      refine ⟨sound_start, fun w hw => ?_⟩
      cases mem_singleton.mp hw
    · cases hstep
      exact ⟨sound_comment, nofun⟩

theorem Sound.piece {p : Piece} (h : r.Sound E) (hp : p.Proper) (hescapes : p.Escapes E)
    (htokens : r.tokens (p.bytes ++ line) = some ts) :
    ∃ (ts₁ ts₂ : List Token) (r' : Reader), r'.Sound E ∧
      (∀ w, .word w ∈ ts₁ → ∀ i ∈ w, Genuine E i) ∧
      r'.tokens line = some ts₂ ∧ ts = ts₁ ++ ts₂ := by
  obtain ⟨mode, cur⟩ := r
  cases p with
  | bare b =>
    obtain ⟨ts₁, ts₂, r', hstep, hrest, rfl⟩ := tokens_cons_some htokens
    obtain ⟨hsound, hwords⟩ := h.step hp hstep
    exact ⟨ts₁, ts₂, r', hsound, hwords, hrest, rfl⟩
  | escaped b =>
    have hpart : (Piece.escaped b).Part := hp
    rcases h.1 with hplain | hcomment
    · cases hplain
      rw [Piece.bytes, cons_append, singleton_append, tokens_escaped cur hp] at htokens
      refine ⟨[], ts, _, h.push fun i hi => ?_, nofun, htokens, rfl⟩
      rw [mem_singleton.mp hi]
      exact .inr ⟨rfl, hescapes⟩
    · cases hcomment
      rw [tokens_comment hpart.newline_not_mem] at htokens
      exact ⟨[], ts, _, sound_comment, nofun, htokens, rfl⟩
  | quotes =>
    have hpart : Piece.quotes.Part := trivial
    rcases h.1 with hplain | hcomment
    · cases hplain
      rw [Piece.bytes, cons_append, singleton_append, tokens_quotes cur] at htokens
      exact ⟨[], ts, _, h.push (w := []) nofun, nofun, htokens, rfl⟩
    · cases hcomment
      rw [tokens_comment hpart.newline_not_mem] at htokens
      exact ⟨[], ts, _, sound_comment, nofun, htokens, rfl⟩

/-- In a line with backslashes each byte of a word is bare or escaped. -/
theorem tokens_genuine {ps : List Piece} (hps : ∀ p ∈ ps, p.Proper ∧ p.Escapes E)
    (hr : r.Sound E) (h : r.tokens (lineOf ps) = some ts) :
    ∀ w, .word w ∈ ts → ∀ i ∈ w, Genuine E i := by
  induction ps generalizing r ts with
  | nil =>
    intro w hw
    obtain ⟨mode, cur⟩ := r
    obtain ⟨hplain | hcomment, hword⟩ := hr
    · cases hplain
      cases h
      exact Sound.flush ⟨.inl rfl, hword⟩ hw
    · cases hcomment
      cases h
      cases hw
  | cons p ps ih =>
    obtain ⟨hp, hescapes⟩ := hps p mem_cons_self
    rw [lineOf, flatMap_cons] at h
    obtain ⟨ts₁, ts₂, r', hsound, hwords, hrest, rfl⟩ := hr.piece hp hescapes h
    intro w hw
    rcases mem_append.mp hw with hw | hw
    · exact hwords w hw
    · exact ih (fun q hq => hps q (mem_cons_of_mem _ hq)) hsound hrest w hw

end Reader

end Items

end Shell
