import Mathlib.Data.List.Basic
import Mathlib.Tactic

/-!
# Streams between two ends

A stream is opened by its left end, accepted or refused by its right end, carries data in both
directions and is closed by either end. The messages of each direction arrive in the order in which
they were sent. An end sends one data message at a time and waits until it is acknowledged; data
that cannot be used at once is kept in a backlog and acknowledged later.

`Act` says what one end can do by itself or when it receives a message. `Stream.Good` is the
invariant of the two ends and the messages on their way.
-/

namespace Duplex

open List Option

variable {α : Type*}

inductive Msg (α : Type*) where
  | opening
  | okay
  | data (bytes : List α)
  | close
  | refuse
  deriving DecidableEq, Repr

inductive Phase where
  /-- has nothing to do with a stream yet -/
  | idle
  /-- has asked for a stream -/
  | pending
  | connected
  | closed
  /-- has ended without ever being connected -/
  | gone
  deriving DecidableEq, Repr

structure End (α : Type*) where
  phase : Phase
  /-- may take new input and send it -/
  reading : Bool
  /-- received, but not yet used -/
  backlog : List (List α)
  /-- all data this end has sent -/
  got : List α
  /-- all data this end has used -/
  put : List α
  /-- how many data messages the end has received while connected, and how many it has
  acknowledged -/
  accepted : ℕ
  acked : ℕ

def End.blank (phase : Phase) : End α := ⟨phase, false, [], [], [], 0, 0⟩

def End.joined : End α := ⟨.connected, true, [], [], [], 0, 0⟩

/-- `Act e i o e'`: the end `e` becomes `e'`, when it receives `i` and sends `o`. -/
inductive Act : End α → Option (Msg α) → Option (Msg α) → End α → Prop where
  | accept : Act (.blank .idle) (some .opening) (some .okay) .joined
  | refuse : Act (.blank .idle) (some .opening) (some .refuse) (.blank .gone)
  | connect : Act (.blank .pending) (some .okay) none .joined
  | refused : Act (.blank .pending) (some .refuse) none (.blank .gone)
  | drop : Act (.blank .pending) none none (.blank .gone)
  | early {m : Msg α} (ho : m ≠ .okay) (hr : m ≠ .refuse) :
      Act (.blank .pending) (some m) none (.blank .pending)
  | resume {e : End α} (hc : e.phase = .connected) :
      Act e (some .okay) none { e with reading := true }
  | feed {e : End α} (hc : e.phase = .connected) (hr : e.reading = true) (bytes : List α) :
      Act e none (some (.data bytes)) { e with reading := false, got := e.got ++ bytes }
  | store {e : End α} {bytes written rest : List α} (hc : e.phase = .connected)
      (hb : bytes = written ++ rest) (hw : written = [] ∨ e.backlog = []) :
      Act e (some (.data bytes)) none
        { e with
          put := e.put ++ written, backlog := e.backlog ++ [rest], accepted := e.accepted + 1 }
  | deliver {e : End α} {bytes : List α} (hc : e.phase = .connected) (hb : e.backlog = []) :
      Act e (some (.data bytes)) (some .okay)
        { e with put := e.put ++ bytes, accepted := e.accepted + 1, acked := e.acked + 1 }
  | fail {e : End α} {bytes written : List α} (hc : e.phase = .connected) (hb : e.backlog = [])
      (hw : written <+: bytes) :
      Act e (some (.data bytes)) (some .close)
        { e with phase := .closed, reading := false, put := e.put ++ written,
                 accepted := e.accepted + 1 }
  | drain {e : End α} {bytes : List α} {queue : List (List α)} (hc : e.phase = .connected)
      (hq : queue ≠ []) (hlen : queue.length ≤ e.backlog.length)
      (hflat : e.backlog.flatten = bytes ++ queue.flatten) :
      Act e none none { e with put := e.put ++ bytes, backlog := queue }
  | answer {e : End α} (hc : e.phase = .connected) (hb : e.backlog ≠ []) :
      Act e none (some .okay)
        { e with put := e.put ++ e.backlog.flatten, backlog := [], acked := e.acked + 1 }
  | close {e : End α} {i : Option (Msg α)} (hc : e.phase = .connected)
      (hi : i = none ∨ i = some .close ∨ i = some .refuse) :
      Act e i (some .close) { e with phase := .closed, reading := false }
  | flush {e : End α} {bytes : List α} {queue : List (List α)} (hc : e.phase = .closed)
      (hlen : queue.length ≤ e.backlog.length)
      (hflat : e.backlog.flatten = bytes ++ queue.flatten) :
      Act e none none { e with put := e.put ++ bytes, backlog := queue }
  | discard {e : End α} (hc : e.phase = .closed) : Act e none none { e with backlog := [] }
  | late {e : End α} (hc : e.phase = .closed ∨ e.phase = .gone) (m : Msg α) : Act e (some m) none e

inductive Turn : Phase → Option (Msg α) → Option (Msg α) → Phase → Prop where
  | accept : Turn .idle (some .opening) (some .okay) .connected
  | refuse : Turn .idle (some .opening) (some .refuse) .gone
  | connect : Turn .pending (some .okay) none .connected
  | drop {i : Option (Msg α)} (hi : i = none ∨ i = some .refuse) : Turn .pending i none .gone
  | early {m : Msg α} (ho : m ≠ .okay) (hr : m ≠ .refuse) : Turn .pending (some m) none .pending
  | talk {i o : Option (Msg α)} (hi : i ≠ some .close) (ho : o ≠ some .opening ∧ o ≠ some .refuse) :
      Turn .connected i o .connected
  | close (i : Option (Msg α)) : Turn .connected i (some .close) .closed
  | late {p : Phase} (hp : p = .closed ∨ p = .gone) (i : Option (Msg α)) : Turn p i none p

variable {i o : Option (Msg α)}

theorem Act.turn {e e' : End α} (h : Act e i o e') : Turn e.phase i o e'.phase := by
  cases h with
  | accept => exact .accept
  | refuse => exact .refuse
  | connect => exact .connect
  | refused => exact .drop (.inr rfl)
  | drop => exact .drop (.inl rfl)
  | early ho hr => exact .early ho hr
  | resume hc | feed hc | store hc | deliver hc | drain hc | answer hc =>
    simp only [hc]
    exact .talk (by simp) (by simp)
  | fail hc | close hc =>
    simp only [hc]
    exact .close _
  | flush hc | discard hc => exact .late (.inl hc) _
  | late hc m => exact .late hc _

theorem Act.awake {e e' : End α} (h : Act e none o e') : e.phase ≠ .idle ∧ e.phase ≠ .gone := by
  cases h <;> simp_all [End.blank]

variable {p p' q : Phase}

theorem Turn.ne_idle (h : Turn p i o p') (hp : p ≠ .idle) : p' ≠ .idle := by
  cases h with
  | late => exact hp
  | _ => simp at hp ⊢

/-- Only the answer makes an end that waits for its stream a connected one. -/
theorem Turn.waiting (h : Turn p i o p')
    (hp : p = .pending ∨ p = .gone) (hi : i ≠ some .okay) : p' = .pending ∨ p' = .gone := by
  cases h with
  | connect => exact absurd rfl hi
  | drop => exact .inr rfl
  | late => exact hp
  | _ => simp at hp ⊢

variable {l lr rl : List (Msg α)}

section Shape

def Talk (l : List (Msg α)) : Prop := ∀ m ∈ l, m ≠ .opening ∧ m ≠ .refuse

theorem Talk.nil : Talk ([] : List (Msg α)) := by simp [Talk]

theorem Talk.tail (h : Talk (i.toList ++ l)) : Talk l :=
  fun m hm => h m (mem_append_right _ hm)

theorem Talk.append (h : Talk l)
    (ho : o ≠ some .opening ∧ o ≠ some .refuse) : Talk (l ++ o.toList) := by
  intro m hm
  rcases mem_append.mp hm with hm | hm
  · exact h m hm
  · rw [mem_toList] at hm
    subst hm
    exact ⟨fun he => ho.1 (by rw [he]), fun he => ho.2 (by rw [he])⟩

/-- How the phases of the left and the right end and the messages from left to right and from right
to left fit together. -/
inductive Shape : Phase → Phase → List (Msg α) → List (Msg α) → Prop where
  | asked {p : Phase} (hp : p = .pending ∨ p = .gone) : Shape p .idle [.opening] []
  | refused {p : Phase} (hp : p = .pending ∨ p = .gone) : Shape p .gone [] [.refuse]
  | ended : Shape .gone .gone [] []
  | answered {q : Phase} {rl : List (Msg α)} (hq : q = .connected ∨ q = .closed ∧ .close ∈ rl)
      (ht : Talk rl) : Shape .pending q [] (.okay :: rl)
  | orphan {q : Phase} {rl : List (Msg α)} (hq : q = .connected ∨ q = .closed) (ht : Talk rl) :
      Shape .gone q [] rl
  | both {lr rl : List (Msg α)} (hl : Talk lr) (hr : Talk rl) : Shape .connected .connected lr rl
  | rightClosed {lr rl : List (Msg α)} (hl : Talk lr) (hr : Talk rl) (hc : .close ∈ rl) :
      Shape .connected .closed lr rl
  | leftClosed {lr rl : List (Msg α)} (hl : Talk lr) (hr : Talk rl) (hc : .close ∈ lr) :
      Shape .closed .connected lr rl
  | closed {lr rl : List (Msg α)} (hl : Talk lr) (hr : Talk rl) : Shape .closed .closed lr rl

theorem mem_of_mem_toList_append {m : Msg α}
    (hm : m ∈ i.toList ++ l) (hi : i ≠ some m) : m ∈ l := by
  rcases mem_append.mp hm with hm | hm
  · rw [mem_toList] at hm
    exact absurd hm hi
  · exact hm

theorem Shape.left
    (h : Shape p q lr (i.toList ++ rl)) (ht : Turn p i o p') : Shape p' q (lr ++ o.toList) rl := by
  generalize hl : i.toList ++ rl = l at h
  cases h with
  | asked hp =>
    obtain ⟨hi, rfl⟩ := append_eq_nil_iff.mp hl
    cases ht with
    | drop => exact .asked (.inr rfl)
    | late => exact .asked hp
    | _ => simp at hi hp
  | refused hp =>
    cases ht with
    | drop hi =>
      rcases hi with rfl | rfl
      · rw [show rl = [.refuse] from hl]
        exact .refused (.inr rfl)
      · rw [show rl = [] from cons.inj hl |>.2]
        exact .ended
    | early ho hr => exact absurd (cons.inj hl).1 hr
    | connect => exact absurd (cons.inj hl).1 (by simp)
    | late hp' =>
      cases i with
      | none =>
        rw [show rl = [.refuse] from hl]
        exact .refused hp
      | some m =>
        rw [show rl = [] from (cons.inj hl).2]
        rcases hp with rfl | rfl
        · simp at hp'
        · exact .ended
    | _ => simp at hp
  | ended =>
    obtain ⟨_, rfl⟩ := append_eq_nil_iff.mp hl
    cases ht
    exact .ended
  | @answered _ rl' hq ht' =>
    cases ht with
    | connect =>
      obtain rfl : rl = rl' := (cons.inj hl).2
      rcases hq with rfl | ⟨rfl, hc⟩
      · exact .both Talk.nil ht'
      · exact .rightClosed Talk.nil ht' hc
    | drop hi =>
      rcases hi with rfl | rfl
      · obtain rfl : rl = .okay :: rl' := hl
        refine .orphan (hq.imp_right And.left) fun m hm => ?_
        rcases mem_cons.mp hm with rfl | hm
        · simp
        · exact ht' m hm
      · exact absurd (cons.inj hl).1 (by simp)
    | early ho => exact absurd (cons.inj hl).1 ho
    | late hp => simp at hp
  | orphan hq ht' =>
    subst hl
    cases ht
    exact .orphan hq ht'.tail
  | both hl' hr' =>
    subst hl
    cases ht with
    | talk _ ho => exact .both (hl'.append ho) hr'.tail
    | close =>
      refine .leftClosed (hl'.append (by simp)) hr'.tail ?_
      simp
    | late hp => simp at hp
  | rightClosed hl' hr' hc =>
    subst hl
    cases ht with
    | talk hi ho => exact .rightClosed (hl'.append ho) hr'.tail (mem_of_mem_toList_append hc hi)
    | close => exact .closed (hl'.append (by simp)) hr'.tail
    | late hp => simp at hp
  | leftClosed hl' hr' hc =>
    subst hl
    cases ht
    rw [toList_none, append_nil]
    exact .leftClosed hl' hr'.tail hc
  | closed hl' hr' =>
    subst hl
    cases ht
    exact .closed (hl'.append (by simp)) hr'.tail

theorem Shape.right {p q q' : Phase}
    (h : Shape p q (i.toList ++ lr) rl) (ht : Turn q i o q') : Shape p q' lr (rl ++ o.toList) := by
  generalize hl : i.toList ++ lr = l at h
  cases h with
  | asked hp =>
    cases ht with
    | accept =>
      obtain rfl : lr = [] := (cons.inj hl).2
      rcases hp with rfl | rfl
      · exact .answered (.inl rfl) Talk.nil
      · exact .orphan (.inl rfl) (Talk.nil.append (by simp))
    | refuse =>
      obtain rfl : lr = [] := (cons.inj hl).2
      exact .refused hp
    | late hp' => simp at hp'
  | refused hp =>
    obtain ⟨_, rfl⟩ := append_eq_nil_iff.mp hl
    cases ht
    exact .refused hp
  | ended =>
    obtain ⟨_, rfl⟩ := append_eq_nil_iff.mp hl
    cases ht
    exact .ended
  | @answered _ rl' hq ht' =>
    obtain ⟨_, rfl⟩ := append_eq_nil_iff.mp hl
    rw [cons_append]
    cases ht with
    | talk _ ho => exact .answered (.inl rfl) (ht'.append ho)
    | close => exact .answered (.inr ⟨rfl, by simp⟩) (ht'.append (by simp))
    | late _ =>
      rw [toList_none, append_nil]
      exact .answered hq ht'
    | _ => simp at hq
  | orphan hq ht' =>
    obtain ⟨_, rfl⟩ := append_eq_nil_iff.mp hl
    cases ht with
    | talk _ ho => exact .orphan (.inl rfl) (ht'.append ho)
    | close => exact .orphan (.inr rfl) (ht'.append (by simp))
    | late _ =>
      rw [toList_none, append_nil]
      exact .orphan hq ht'
    | _ => simp at hq
  | both hl' hr' =>
    subst hl
    cases ht with
    | talk _ ho => exact .both hl'.tail (hr'.append ho)
    | close =>
      refine .rightClosed hl'.tail (hr'.append (by simp)) ?_
      simp
    | late hp => simp at hp
  | rightClosed hl' hr' hc =>
    subst hl
    cases ht
    rw [toList_none, append_nil]
    exact .rightClosed hl'.tail hr' hc
  | leftClosed hl' hr' hc =>
    subst hl
    cases ht with
    | talk hi ho => exact .leftClosed hl'.tail (hr'.append ho) (mem_of_mem_toList_append hc hi)
    | close => exact .closed hl'.tail (hr'.append (by simp))
    | late hp => simp at hp
  | closed hl' hr' =>
    subst hl
    cases ht
    exact .closed hl'.tail (hr'.append (by simp))

/-- A pending end has to expect nothing but the answer. -/
theorem Shape.pending_head {m : Msg α}
    (h : Shape .pending q lr (m :: rl)) : m = .okay ∨ m = .refuse ∧ q = .gone := by
  generalize hl : m :: rl = l at h
  cases h with
  | asked => cases hl
  | refused => exact .inr ⟨(cons.inj hl).1, rfl⟩
  | answered => exact .inl (cons.inj hl).1

theorem Shape.idle_right (h : Shape p .idle lr rl) :
    (p = .pending ∨ p = .gone) ∧ lr = [.opening] ∧ rl = [] := by
  generalize hq : Phase.idle = q at h
  cases h with
  | asked hp => exact ⟨hp, rfl, rfl⟩
  | answered hq' => rcases hq' with rfl | ⟨rfl, _⟩ <;> cases hq
  | orphan hq' => rcases hq' with rfl | rfl <;> cases hq
  | _ => cases hq

theorem Shape.gone_right (h : Shape p .gone lr rl) : p = .pending ∨ p = .gone := by
  generalize hq : Phase.gone = q at h
  cases h with
  | refused hp => exact hp
  | ended => exact .inr rfl
  | answered hq' => rcases hq' with rfl | ⟨rfl, _⟩ <;> cases hq
  | orphan hq' => rcases hq' with rfl | rfl <;> cases hq
  | _ => cases hq

theorem Shape.phases (h : Shape p q lr rl) : p ≠ .idle ∧ q ≠ .pending := by
  cases h with
  | asked hp | refused hp => rcases hp with rfl | rfl <;> simp
  | answered hq => rcases hq with rfl | ⟨rfl, _⟩ <;> simp
  | orphan hq => rcases hq with rfl | rfl <;> simp
  | _ => simp

theorem Shape.settled (h : Shape p q ([] : List (Msg α)) [])
    (hg : p = .gone → q = .gone) : p = .connected ↔ q = .connected := by
  generalize hl : ([] : List (Msg α)) = lr at h
  generalize hr : ([] : List (Msg α)) = rl at h
  cases h <;> simp_all

end Shape

section Flow

def Msg.bytes : Msg α → List α
  | .data bytes => bytes
  | _ => []

def Msg.isData : Msg α → Bool
  | .data _ => true
  | _ => false

def Msg.isOkay : Msg α → Bool
  | .okay => true
  | _ => false

def End.credit (e : End α) : ℕ :=
  match e.phase with
  | .idle => 1
  | .connected => e.reading.toNat
  | _ => 0

def End.debt (e : End α) : ℕ :=
  match e.phase with
  | .idle => 1
  | .connected => e.backlog.length
  | _ => 0

def End.taken (e : End α) : List α := e.put ++ e.backlog.flatten

def End.Live (e : End α) : Prop := e.phase ≠ .closed ∧ e.phase ≠ .gone

/-- One direction of a stream: the data from `src` to `dst`, with the messages `fwd` on the way from
`src` to `dst` and `bwd` on the way back. -/
structure Flow (src dst : End α) (fwd bwd : List (Msg α)) : Prop where
  data : dst.Live → src.got = dst.taken ++ fwd.flatMap Msg.bytes
  order : dst.taken <+: src.got
  single : src.credit + fwd.countP Msg.isData + dst.debt + bwd.countP Msg.isOkay ≤ 1
  acked : dst.phase = .connected → dst.accepted = dst.acked + dst.backlog.length
  short : dst.backlog.length ≤ 1
  awake : src.Live → dst.Live →
    0 < src.credit + fwd.countP Msg.isData + dst.debt + bwd.countP Msg.isOkay

variable {e e' : End α}

section Acts

variable (h : Act e i o e')

include h

theorem Act.got : e'.got = e.got ++ o.toList.flatMap Msg.bytes := by
  cases h <;> simp [End.blank, End.joined, Msg.bytes]

/-- Credit comes from acknowledgements, and every data message uses it up. -/
theorem Act.credit :
    e'.credit + o.toList.countP Msg.isData ≤ e.credit + i.toList.countP Msg.isOkay := by
  cases h with
  | feed hc hr => simp [End.credit, hc, hr, Msg.isData]
  | resume hc => simp [End.credit, hc, Msg.isOkay]
  | late hc m => simp
  | _ => simp_all [End.blank, End.joined, End.credit, Msg.isOkay, Msg.isData]

/-- Debt comes from data messages, and every acknowledgement settles it. -/
theorem Act.debt : e'.debt + o.toList.countP Msg.isOkay ≤ e.debt + i.toList.countP Msg.isData := by
  cases h with
  | answer hc hb =>
    have := length_pos_iff.mpr hb
    simp [End.debt, hc, Msg.isOkay]
    omega
  | late hc m => simp
  | _ => simp_all [End.blank, End.joined, End.debt, Msg.isOkay, Msg.isData]

/-- A live end has credit, or has passed on what it had. -/
theorem Act.credit_kept (hl : e'.Live) : 0 < e'.credit ∨ e.Live ∧
      e.credit + i.toList.countP Msg.isOkay ≤ e'.credit + o.toList.countP Msg.isData := by
  cases h with
  | accept | connect => exact .inl (by simp [End.joined, End.credit])
  | resume hc => exact .inl (by simp [End.credit, hc])
  | @early m ho hr => exact .inr ⟨hl, by cases m <;> simp_all [Msg.isOkay]⟩
  | feed hc hr => exact .inr ⟨by simp [End.Live, hc], by simp [End.credit, hc, hr, Msg.isData]⟩
  | store hc | deliver hc => exact .inr ⟨hl, by simp [End.credit, hc, Msg.isOkay]⟩
  | drain hc | answer hc => exact .inr ⟨hl, by simp [End.credit, hc]⟩
  | late hc => exact absurd hl (by rcases hc with hc | hc <;> simp [End.Live, hc])
  | _ => simp_all [End.Live, End.blank]

/-- A live end is in debt, or has passed on what it owed. -/
theorem Act.debt_kept (hl : e'.Live) (hp : e.phase = .pending → ∀ bytes, i ≠ some (.data bytes)) :
    0 < e'.debt + o.toList.countP Msg.isOkay ∨ e.Live ∧
      e.debt + i.toList.countP Msg.isData ≤ e'.debt + o.toList.countP Msg.isOkay := by
  cases h with
  | accept | deliver | answer => exact .inl (by simp [Msg.isOkay])
  | connect =>
    exact .inr ⟨by simp [End.Live, End.blank], by simp [End.blank, End.debt, Msg.isData]⟩
  | @early m ho hr =>
    refine .inr ⟨hl, ?_⟩
    cases m with
    | data bytes => exact absurd rfl (hp rfl bytes)
    | _ => simp [Msg.isData]
  | resume hc => exact .inr ⟨hl, by simp [End.debt, hc, Msg.isData]⟩
  | feed hc => exact .inr ⟨hl, by simp [End.debt, hc]⟩
  | store hc => exact .inl (by simp [End.debt, hc])
  | drain hc hq => exact .inl (by simp [End.debt, hc, length_pos_iff, hq])
  | late hc => exact absurd hl (by rcases hc with hc | hc <;> simp [End.Live, hc])
  | _ => simp_all [End.Live, End.blank]

theorem Act.taken (hl : e'.Live) (hp : e.phase = .pending → ∀ bytes, i ≠ some (.data bytes)) :
    e.Live ∧ e'.taken = e.taken ++ i.toList.flatMap Msg.bytes := by
  cases h with
  | @early m ho hr =>
    refine ⟨hl, ?_⟩
    cases m with
    | data bytes => exact absurd rfl (hp rfl bytes)
    | _ => simp [Msg.bytes]
  | store hc hb hw =>
    refine ⟨by simp [End.Live, hc], ?_⟩
    rcases hw with rfl | hw
    · simp [End.taken, Msg.bytes, hb]
    · simp [End.taken, Msg.bytes, hb, hw]
  | drain hc _ _ hflat => exact ⟨by simp [End.Live, hc], by simp [End.taken, hflat]⟩
  | late hc m => exact absurd hl (by rcases hc with hc | hc <;> simp [End.Live, hc])
  | _ => simp_all [End.Live, End.blank, End.joined, End.taken, Msg.bytes]

theorem Act.order : e'.taken <+: e.taken ++ i.toList.flatMap Msg.bytes := by
  cases h with
  | store hc hb hw =>
    rcases hw with rfl | hw
    · simp [End.taken, Msg.bytes, hb]
    · simp [End.taken, Msg.bytes, hb, hw]
  | fail hc hb hw => simp [End.taken, Msg.bytes, hb, prefix_append_right_inj, hw]
  | drain hc _ _ hflat | flush hc _ hflat => simp [End.taken, hflat]
  | _ => simp_all [End.blank, End.joined, End.taken, Msg.bytes]

theorem Act.ended (hl : ¬ e.Live) : e'.taken <+: e.taken ∧ ¬ e'.Live := by
  cases h with
  | flush hc _ hflat => exact ⟨by simp [End.taken, hflat], hl⟩
  | discard hc => exact ⟨by simp [End.taken], hl⟩
  | late hc m => exact ⟨prefix_rfl, hl⟩
  | _ => simp_all [End.Live, End.blank]

theorem Act.acked (hd : e.debt ≤ 1)
    (ha : e.phase = .connected → e.accepted = e.acked + e.backlog.length)
    (hc' : e'.phase = .connected) : e'.accepted = e'.acked + e'.backlog.length := by
  cases h with
  | @drain e bytes queue hc hq hlen hflat =>
    have := ha hc
    have := length_pos_iff.mpr hq
    simp only [End.debt, hc] at hd
    change e.accepted = e.acked + queue.length
    omega
  | @answer e hc hb =>
    have := ha hc
    have := length_pos_iff.mpr hb
    simp only [End.debt, hc] at hd
    change e.accepted = e.acked + 1 + 0
    omega
  | @store e bytes written rest hc | @deliver e bytes hc =>
    have := ha hc
    simp
    omega
  | _ => simp_all [End.blank, End.joined]

theorem Act.backlog : e'.backlog.length ≤ 1 ∨
    e'.backlog.length ≤ e.backlog.length ∨ e'.phase = .connected ∧ e'.debt = e'.backlog.length := by
  cases h with
  | store hc => exact .inr (.inr ⟨hc, by simp [End.debt, hc]⟩)
  | drain hc _ hlen | flush hc hlen => exact .inr (.inl hlen)
  | _ => simp [End.blank, End.joined]

end Acts

variable {src dst src' dst' : End α} {fwd bwd : List (Msg α)}

theorem Flow.send (h : Flow src dst fwd (i.toList ++ bwd)) (ha : Act src i o src') :
    Flow src' dst (fwd ++ o.toList) bwd where
  data hl := by rw [ha.got, h.data hl, flatMap_append, append_assoc]
  order := h.order.trans (by rw [ha.got]; exact prefix_append _ _)
  single := by
    have := ha.credit
    have := h.single
    rw [countP_append] at this ⊢
    omega
  acked := h.acked
  short := h.short
  awake hl hl' := by
    rw [countP_append]
    rcases ha.credit_kept hl with hpos | ⟨hsrc, hle⟩
    · omega
    · have hold := h.awake hsrc hl'
      rw [countP_append] at hold
      omega

theorem Flow.receive (h : Flow src dst (i.toList ++ fwd) bwd) (ha : Act dst i o dst')
    (hp : dst.phase = .pending → ∀ bytes, i ≠ some (.data bytes)) :
    Flow src dst' fwd (bwd ++ o.toList) where
  data hl := by
    obtain ⟨hl', htaken⟩ := ha.taken hl hp
    rw [h.data hl', htaken, flatMap_append, append_assoc]
  order := by
    by_cases hl : dst.Live
    · refine ha.order.trans ?_
      rw [h.data hl, flatMap_append, ← append_assoc]
      exact prefix_append _ _
    · exact (ha.ended hl).1.trans h.order
  single := by
    have := ha.debt
    have := h.single
    rw [countP_append] at this ⊢
    omega
  acked := by
    have := h.single
    exact ha.acked (by omega) h.acked
  short := by
    have hsingle := h.single
    have hdebt := ha.debt
    have hshort := h.short
    rcases ha.backlog with hb | hb | ⟨_, hb⟩
    · exact hb
    · exact hb.trans hshort
    · rw [countP_append] at hsingle
      omega
  awake hl hl' := by
    rw [countP_append]
    rcases ha.debt_kept hl' hp with hpos | ⟨hdst, hle⟩
    · omega
    · have hold := h.awake hl hdst
      rw [countP_append] at hold
      omega

end Flow

structure Stream (α : Type*) where
  left : End α
  right : End α
  lr : List (Msg α)
  rl : List (Msg α)

def Stream.asked : Stream α := ⟨.blank .pending, .blank .idle, [.opening], []⟩

namespace Stream

structure Good (s : Stream α) : Prop where
  shape : Shape s.left.phase s.right.phase s.lr s.rl
  toRight : Flow s.left s.right s.lr s.rl
  toLeft : Flow s.right s.left s.rl s.lr

variable {l l' r r' : End α}

theorem good_asked : (asked : Stream α).Good where
  shape := .asked (.inl rfl)
  toRight := by
    constructor <;> simp [asked, End.blank, End.taken, End.credit, End.debt, Msg.bytes, Msg.isData]
  toLeft := by
    constructor <;> simp [asked, End.blank, End.taken, End.credit, End.debt, Msg.isOkay]

theorem Good.left (h : Good ⟨l, r, lr, i.toList ++ rl⟩) (ha : Act l i o l') :
    Good ⟨l', r, lr ++ o.toList, rl⟩ where
  shape := h.shape.left ha.turn
  toRight := h.toRight.send ha
  toLeft := by
    refine h.toLeft.receive ha fun hp bytes hi => ?_
    subst hi
    have hshape : Shape .pending r.phase lr (.data bytes :: rl) := hp ▸ h.shape
    rcases hshape.pending_head with hm | ⟨hm, _⟩ <;> cases hm

theorem Good.right (h : Good ⟨l, r, i.toList ++ lr, rl⟩) (ha : Act r i o r') :
    Good ⟨l, r', lr, rl ++ o.toList⟩ where
  shape := h.shape.right ha.turn
  toRight := by
    refine h.toRight.receive ha fun hp => ?_
    exact absurd hp h.shape.phases.2
  toLeft := h.toLeft.send ha

def NoOrphan (s : Stream α) : Prop := s.left.phase = .gone → s.right.phase = .gone

theorem NoOrphan.left (hn : NoOrphan ⟨l, r, lr, i.toList ++ rl⟩)
    (h : Good ⟨l, r, lr, i.toList ++ rl⟩) (ha : Act l i o l')
    (hd : l.phase = .pending → i ≠ none) : NoOrphan ⟨l', r, lr ++ o.toList, rl⟩ := by
  intro hg
  change l'.phase = .gone at hg
  have hturn := ha.turn
  rw [hg] at hturn
  have hshape := h.shape
  generalize hp : l.phase = p at hturn
  cases hturn with
  | refuse => exact absurd hp hshape.phases.1
  | drop hi =>
    rcases hi with rfl | rfl
    · exact absurd rfl (hd hp)
    · have hshape : Shape .pending r.phase lr (.refuse :: rl) := hp ▸ h.shape
      rcases hshape.pending_head with hm | ⟨_, hr⟩
      · cases hm
      · exact hr
  | late => exact hn hp

theorem NoOrphan.right (hn : NoOrphan ⟨l, r, i.toList ++ lr, rl⟩) (ha : Act r i o r') :
    NoOrphan ⟨l, r', lr, rl ++ o.toList⟩ := by
  intro hg
  have hturn := ha.turn
  rw [show r.phase = .gone from hn hg] at hturn
  change r'.phase = .gone
  generalize r'.phase = p at hturn
  cases hturn
  rfl

theorem Good.agree (h : Good ⟨l, r, [], []⟩) (hn : NoOrphan ⟨l, r, [], []⟩) :
    l.phase = .connected ↔ r.phase = .connected := h.shape.settled hn

end Stream

end Duplex
