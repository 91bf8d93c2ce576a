import PaxAdb.Duplex

/-!
# Many streams over one pair of channels

Two nodes exchange the messages of all their streams over two channels that deliver in order. Each
node has an end for every name. A message names the end it comes from and the end it is for, except
that the end a new stream is for is not known yet, and that a refused stream has no second end.

`Table` is the invariant: every end in use has a role in one stream, the roles of the two nodes
match, every message on its way belongs to a stream, and each stream is in order by itself.
-/

namespace Duplex

open List

variable {ι α : Type*}

inductive Frame (ι α : Type*) where
  | opening (src : ι)
  | refuse (dst : ι)
  | talk (src dst : ι) (m : Msg α)

structure Node (ι α : Type*) where
  ends : ι → End α
  /-- the end at the other node, once it is known -/
  partner : ι → Option ι
  /-- sent and not yet delivered -/
  out : List (Frame ι α)

def Node.Connected (n : Node ι α) (l r : ι) : Prop :=
  n.partner l = some r ∧ (n.ends l).phase = .connected

/-- What a node does by itself. An end that waits for its stream gives up under the condition
`drop` only. -/
inductive Local (drop : Prop) (n n' : Node ι α) : Prop where
  | quiet (hends : ∀ i, n'.ends i = n.ends i ∨ n.ends i = .blank .idle ∧ n'.ends i = .blank .gone)
      (hpartner : n'.partner = n.partner) (hout : n'.out = n.out) : Local drop n n'
  | ask {i : ι} (hi : n.ends i = .blank .idle) (hi' : n'.ends i = .blank .pending)
      (hne : ∀ j, j ≠ i → n'.ends j = n.ends j) (hpartner : n'.partner = n.partner)
      (hout : n'.out = n.out ++ [.opening i]) : Local drop n n'
  | act {i r : ι} {o : Option (Msg α)} (ha : Act (n.ends i) none o (n'.ends i))
      (hd : (n.ends i).phase = .pending → drop) (hne : ∀ j, j ≠ i → n'.ends j = n.ends j)
      (hpartner : n'.partner = n.partner) (hr : o ≠ none → n.partner i = some r)
      (hout : n'.out = n.out ++ o.toList.map (.talk i r)) : Local drop n n'

inductive Takes (n n' : Node ι α) : Frame ι α → Prop where
  | accept {src i : ι} (hi : n.ends i = .blank .idle) (hi' : n'.ends i = .joined)
      (hne : ∀ j, j ≠ i → n'.ends j = n.ends j) (hp : n'.partner i = some src)
      (hpne : ∀ j, j ≠ i → n'.partner j = n.partner j)
      (hout : n'.out = n.out ++ [.talk i src .okay]) : Takes n n' (.opening src)
  | refuse {src : ι} (hends : n'.ends = n.ends) (hpartner : n'.partner = n.partner)
      (hout : n'.out = n.out ++ [.refuse src]) : Takes n n' (.opening src)
  | refused {dst : ι} (ha : Act (n.ends dst) (some .refuse) none (n'.ends dst))
      (hne : ∀ j, j ≠ dst → n'.ends j = n.ends j) (hpartner : n'.partner = n.partner)
      (hout : n'.out = n.out) : Takes n n' (.refuse dst)
  | talk {src dst : ι} {m : Msg α} {o : Option (Msg α)}
      (ha : Act (n.ends dst) (some m) o (n'.ends dst)) (hne : ∀ j, j ≠ dst → n'.ends j = n.ends j)
      (hp : n'.partner dst = some src ∨ n'.partner dst = n.partner dst ∧
        ((n'.ends dst).phase = .pending ∨ (n'.ends dst).phase = .gone))
      (hpne : ∀ j, j ≠ dst → n'.partner j = n.partner j)
      (hout : n'.out = n.out ++ o.toList.map (.talk dst src)) : Takes n n' (.talk src dst m)

def Node.Expects (n : Node ι α) : Frame ι α → Prop
  | .opening _ => True
  | .refuse dst => n.partner dst = none ∧
      ((n.ends dst).phase = .pending ∨ (n.ends dst).phase = .gone)
  | .talk src dst _ => n.partner dst = some src ∨
      n.partner dst = none ∧ ((n.ends dst).phase = .pending ∨ (n.ends dst).phase = .gone)

inductive Role (ι : Type*) where
  | unused
  /-- has asked for a stream, and the request is on its way -/
  | asked
  | refused
  | initiator (r : ι)
  | acceptor (l : ι)

def Role.Opens : Role ι → Prop
  | .asked | .refused | .initiator _ => True
  | _ => False

def Role.rightEnd (m : Node ι α) : Role ι → End α
  | .refused => .blank .gone
  | .initiator r => m.ends r
  | _ => .blank .idle

def Node.Fits (n : Node ι α) (i : ι) : Role ι → Prop
  | .unused => n.partner i = none ∧ (n.ends i = .blank .idle ∨ n.ends i = .blank .gone)
  | .asked | .refused => n.partner i = none
  | .initiator r => n.partner i = some r ∨
      n.partner i = none ∧ ((n.ends i).phase = .pending ∨ (n.ends i).phase = .gone)
  | .acceptor l => n.partner i = some l ∧ (n.ends i).phase ≠ .idle

def Frame.Fits (mine theirs : ι → Role ι) : Frame ι α → Prop
  | .opening src => mine src = .asked
  | .refuse dst => theirs dst = .refused
  | .talk src dst _ => mine src = .initiator dst ∨ mine src = .acceptor dst

structure Stream.Sound (drop : Prop) (s : Stream α) : Prop where
  good : s.Good
  kept : drop ∨ s.NoOrphan

namespace Stream.Sound

variable {drop : Prop} {l l' r r' : End α} {lr rl : List (Msg α)} {i o : Option (Msg α)}

theorem asked : (Stream.asked : Stream α).Sound drop :=
  ⟨good_asked, .inr fun h => by cases h⟩

theorem left (h : Sound drop ⟨l, r, lr, i.toList ++ rl⟩) (ha : Act l i o l')
    (hd : l.phase = .pending → i = none → drop) : Sound drop ⟨l', r, lr ++ o.toList, rl⟩ := by
  refine ⟨h.good.left ha, ?_⟩
  by_cases hdrop : drop
  · exact .inl hdrop
  · exact .inr ((h.kept.resolve_left hdrop).left h.good ha fun hp hi => hdrop (hd hp hi))

theorem right (h : Sound drop ⟨l, r, i.toList ++ lr, rl⟩) (ha : Act r i o r') :
    Sound drop ⟨l, r', lr, rl ++ o.toList⟩ :=
  ⟨h.good.right ha, h.kept.imp_right fun hn => hn.right ha⟩

end Stream.Sound

theorem fits_congr {m m' : Node ι α} {i : ι} (he : m'.ends i = m.ends i)
    (hp : m'.partner i = m.partner i)
    {x : Role ι} (h : m.Fits i x) : m'.Fits i x := by
  cases x <;> simpa only [Node.Fits, he, hp] using h

theorem rightEnd_congr {m m' : Node ι α} {x : Role ι}
    (h : ∀ r, x = .initiator r → m'.ends r = m.ends r) : x.rightEnd m' = x.rightEnd m := by
  cases x with
  | initiator r => exact h r rfl
  | _ => rfl

section Channels

variable [DecidableEq ι]

def Frame.sentBy (l : ι) : Frame ι α → Option (Msg α)
  | .opening src => if src = l then some .opening else none
  | .refuse _ => none
  | .talk src _ m => if src = l then some m else none

def Frame.sentTo (l : ι) : Frame ι α → Option (Msg α)
  | .opening _ => none
  | .refuse dst => if dst = l then some .refuse else none
  | .talk _ dst m => if dst = l then some m else none

def Node.sentBy (n : Node ι α) (l : ι) : List (Msg α) := n.out.filterMap (Frame.sentBy l)

def Node.sentTo (n : Node ι α) (l : ι) : List (Msg α) := n.out.filterMap (Frame.sentTo l)

variable {n n' : Node ι α} {l i r : ι} {fs : List (Frame ι α)} {o : Option (Msg α)}

theorem sentBy_append (h : n'.out = n.out ++ fs) (l : ι) :
    n'.sentBy l = n.sentBy l ++ fs.filterMap (Frame.sentBy l) := by
  rw [Node.sentBy, h, filterMap_append]
  rfl

theorem sentTo_append (h : n'.out = n.out ++ fs) (l : ι) :
    n'.sentTo l = n.sentTo l ++ fs.filterMap (Frame.sentTo l) := by
  rw [Node.sentTo, h, filterMap_append]
  rfl

theorem sentBy_rest (h : n.out = fs ++ n'.out) (l : ι) :
    n.sentBy l = fs.filterMap (Frame.sentBy l) ++ n'.sentBy l := by
  rw [Node.sentBy, h, filterMap_append]
  rfl

theorem sentTo_rest (h : n.out = fs ++ n'.out) (l : ι) :
    n.sentTo l = fs.filterMap (Frame.sentTo l) ++ n'.sentTo l := by
  rw [Node.sentTo, h, filterMap_append]
  rfl

theorem sentBy_talk (i r : ι) (o : Option (Msg α)) :
    (o.toList.map (Frame.talk i r)).filterMap (Frame.sentBy i) = o.toList := by
  cases o <;> simp [Frame.sentBy]

theorem sentBy_talk_ne (r : ι) (o : Option (Msg α)) (h : l ≠ i) :
    (o.toList.map (Frame.talk i r)).filterMap (Frame.sentBy l) = [] := by
  cases o <;> simp [Frame.sentBy, h.symm]

theorem sentTo_talk (i r : ι) (o : Option (Msg α)) :
    (o.toList.map (Frame.talk i r)).filterMap (Frame.sentTo r) = o.toList := by
  cases o <;> simp [Frame.sentTo]

theorem sentTo_talk_ne (i : ι) (o : Option (Msg α)) (h : l ≠ r) :
    (o.toList.map (Frame.talk i r)).filterMap (Frame.sentTo l) = [] := by
  cases o <;> simp [Frame.sentTo, h.symm]

end Channels

section Table

variable [DecidableEq ι] {drop : Prop} {n n' : Bool → Node ι α} {role role' : Bool → ι → Role ι}
  {b c : Bool} {i l r src : ι} {o : Option (Msg α)}

def stream (n m : Node ι α) (role : Role ι) (l : ι) : Stream α :=
  ⟨n.ends l, role.rightEnd m, n.sentBy l, m.sentTo l⟩

structure Table (drop : Prop) (n : Bool → Node ι α) (role : Bool → ι → Role ι) : Prop where
  pair : ∀ b c, b ≠ c → ∀ l r, role b l = .initiator r ↔ role c r = .acceptor l
  fits : ∀ b i, (n b).Fits i (role b i)
  frames : ∀ b c, b ≠ c → ∀ f ∈ (n b).out, f.Fits (role b) (role c)
  sound : ∀ b c, b ≠ c → ∀ l, (role b l).Opens →
    (stream (n b) (n c) (role b l) l).Sound drop

/-- One node has done something at its end `i`: it has taken the messages `g` of the other node,
and has sent `fs`. -/
structure Shift (n n' : Bool → Node ι α) (b c : Bool) (i : ι) (g fs : List (Frame ι α)) : Prop where
  ends : ∀ j, j ≠ i → (n' b).ends j = (n b).ends j
  partner : ∀ j, j ≠ i → (n' b).partner j = (n b).partner j
  out : (n' b).out = (n b).out ++ fs
  otherEnds : (n' c).ends = (n c).ends
  otherPartner : (n' c).partner = (n c).partner
  otherOut : (n c).out = g ++ (n' c).out

theorem Table.init (hends : ∀ b i, (n b).ends i = .blank .idle)
    (hpartner : ∀ b i, (n b).partner i = none) (hout : ∀ b, (n b).out = []) :
    Table drop n fun _ _ => .unused where
  pair _ _ _ _ _ := ⟨nofun, nofun⟩
  fits b i := ⟨hpartner b i, .inl (hends b i)⟩
  frames b _ _ f hf := by
    rw [hout b] at hf
    cases hf
  sound _ _ _ _ ho := ho.elim

theorem sides {b c d e : Bool} (hbc : b ≠ c) (hde : d ≠ e) : d = b ∧ e = c ∨ d = c ∧ e = b := by
  revert hbc hde
  cases b <;> cases c <;> cases d <;> cases e <;> simp

theorem other_side {b c e : Bool} (hbc : b ≠ c) (hce : c ≠ e) : e = b :=
  (sides hbc hce).elim (fun h => absurd h.1.symm hbc) And.right

namespace Table

variable {g fs : List (Frame ι α)} {inp : Option (Msg α)}

section Shifts

variable (h : Table drop n role) (hbc : b ≠ c)

include h hbc

section Shifts

variable (hs : Shift n n' b c i g fs)

include hs

theorem frames_shift {d e : Bool} (hde : d ≠ e) {f : Frame ι α} (hf : f ∈ (n' d).out) :
    f ∈ (n d).out ∧ f.Fits (role d) (role e) ∨ d = b ∧ e = c ∧ f ∈ fs := by
  rcases sides hbc hde with ⟨rfl, rfl⟩ | ⟨rfl, rfl⟩
  · rw [hs.out, mem_append] at hf
    exact hf.imp (fun hf => ⟨hf, h.frames d e hde f hf⟩) fun hf => ⟨rfl, rfl, hf⟩
  · have hf' : f ∈ (n d).out := by
      rw [hs.otherOut]
      exact mem_append_right _ hf
    exact .inl ⟨hf', h.frames d e hde f hf'⟩

theorem fits_shift {d : Bool} {j : ι} (hj : d ≠ b ∨ j ≠ i) : (n' d).Fits j (role d j) := by
  by_cases hd : d = b
  · subst hd
    have hji := hj.resolve_left (by simp)
    exact fits_congr (hs.ends j hji) (hs.partner j hji) (h.fits d j)
  · rcases sides hbc (Ne.symm hd) with ⟨_, rfl⟩ | ⟨he, _⟩
    · exact fits_congr (by rw [hs.otherEnds]) (by rw [hs.otherPartner]) (h.fits d j)
    · exact absurd he hbc

theorem fits_at
    (hfit : (n' b).Fits i (role b i)) (d : Bool) (j : ι) : (n' d).Fits j (role d j) := by
  by_cases hj : d = b ∧ j = i
  · obtain ⟨rfl, rfl⟩ := hj
    exact hfit
  · exact h.fits_shift hbc hs (not_and_or.mp hj)

theorem sound_near (hl : (role b l).Opens) (hends : (n' b).ends l = (n b).ends l)
    (hby : fs.filterMap (Frame.sentBy l) = []) (hto : g.filterMap (Frame.sentTo l) = []) :
    (stream (n' b) (n' c) (role b l) l).Sound drop := by
  have hright : (role b l).rightEnd (n' c) = (role b l).rightEnd (n c) :=
    rightEnd_congr fun r _ => by rw [hs.otherEnds]
  have hold := h.sound b c hbc l hl
  rw [stream, sentTo_rest hs.otherOut, hto] at hold
  rw [stream, hright, hends, sentBy_append hs.out, hby, append_nil]
  exact hold

theorem sound_far
    (hl : (role c l).Opens) (hends : ∀ r, role c l = .initiator r → (n' b).ends r = (n b).ends r)
    (hby : g.filterMap (Frame.sentBy l) = []) (hto : fs.filterMap (Frame.sentTo l) = []) :
    (stream (n' c) (n' b) (role c l) l).Sound drop := by
  have hright : (role c l).rightEnd (n' b) = (role c l).rightEnd (n b) := rightEnd_congr hends
  have hold := h.sound c b hbc.symm l hl
  rw [stream, sentBy_rest hs.otherOut, hby] at hold
  rw [stream, hright, hs.otherEnds, sentTo_append hs.out, hto, append_nil]
  exact hold

end Shifts

theorem left (hs : Shift n n' b c i g (o.toList.map (.talk i r)))
    (ha : Act ((n b).ends i) inp o ((n' b).ends i)) (hopen : (role b i).Opens)
    (hr : o ≠ none → role b i = .initiator r) (hg : g.filterMap (Frame.sentTo i) = inp.toList)
    (hgne : ∀ l, l ≠ i → g.filterMap (Frame.sentTo l) = [])
    (hgby : ∀ l, (role c l).Opens → g.filterMap (Frame.sentBy l) = [])
    (hd : ((n b).ends i).phase = .pending → inp = none → drop)
    (hfit : (n' b).Fits i (role b i)) : Table drop n' role := by
  refine ⟨h.pair, h.fits_at hbc hs hfit, fun d e hde f hf => ?_, fun d e hde l hl => ?_⟩
  · rcases h.frames_shift hbc hs hde hf with ⟨_, hf⟩ | ⟨rfl, rfl, hf⟩
    · exact hf
    · obtain ⟨m, hm, rfl⟩ := mem_map.mp hf
      exact .inl (hr (by rintro rfl; cases hm))
  rcases sides hbc hde with ⟨rfl, rfl⟩ | ⟨rfl, rfl⟩
  · by_cases hli : l = i
    · subst hli
      have hright : (role d l).rightEnd (n' e) = (role d l).rightEnd (n e) :=
        rightEnd_congr fun r _ => by rw [hs.otherEnds]
      have hold := h.sound d e hde l hl
      rw [stream, sentTo_rest hs.otherOut, hg] at hold
      rw [stream, hright, sentBy_append hs.out, sentBy_talk]
      exact hold.left ha hd
    · exact h.sound_near hbc hs hl (hs.ends l hli) (sentBy_talk_ne r o hli) (hgne l hli)
  · refine h.sound_far hbc hs hl (fun r' hr' => hs.ends r' ?_) (hgby l hl) ?_
    · rintro rfl
      rw [(h.pair d e hde l r').mp hr'] at hopen
      exact hopen
    · cases ho : o with
      | none => rfl
      | some m =>
        refine sentTo_talk_ne i (some m) ?_
        rintro rfl
        rw [(h.pair e d hbc i l).mp (hr (by simp [ho]))] at hl
        exact hl

theorem right (hs : Shift n n' b c i g (o.toList.map (.talk i l)))
    (ha : Act ((n b).ends i) inp o ((n' b).ends i)) (hacc : role b i = .acceptor l)
    (hg : g.filterMap (Frame.sentBy l) = inp.toList)
    (hgne : ∀ l', l' ≠ l → g.filterMap (Frame.sentBy l') = [])
    (hgto : ∀ j, j ≠ i → g.filterMap (Frame.sentTo j) = [])
    (hfit : (n' b).Fits i (role b i)) : Table drop n' role := by
  have hinit := (h.pair c b hbc.symm l i).mpr hacc
  refine ⟨h.pair, h.fits_at hbc hs hfit, fun d e hde f hf => ?_, fun d e hde j hj => ?_⟩
  · rcases h.frames_shift hbc hs hde hf with ⟨_, hf⟩ | ⟨rfl, rfl, hf⟩
    · exact hf
    · obtain ⟨m, _, rfl⟩ := mem_map.mp hf
      exact .inr hacc
  rcases sides hbc hde with ⟨rfl, rfl⟩ | ⟨rfl, rfl⟩
  · have hji : j ≠ i := by
      rintro rfl
      rw [hacc] at hj
      exact hj
    exact h.sound_near hbc hs hj (hs.ends j hji) (sentBy_talk_ne l o hji) (hgto j hji)
  · by_cases hjl : j = l
    · subst hjl
      have hold := h.sound d e hde j hj
      rw [stream, sentBy_rest hs.otherOut, hg, hinit] at hold
      rw [stream, hs.otherEnds, sentTo_append hs.out, hinit, sentTo_talk]
      exact hold.right ha
    · refine h.sound_far hbc hs hj (fun r hr => hs.ends r ?_) (hgne j hjl) (sentTo_talk_ne i o hjl)
      rintro rfl
      exact hjl (Role.acceptor.inj (((h.pair d e hde j r).mp hr).symm.trans hacc))

omit hbc in
theorem ne_idle (hne : role b i ≠ .unused) : ((n b).ends i).phase ≠ .idle := by
  have hopens : (role b i).Opens → ((n b).ends i).phase ≠ .idle := fun hopen =>
    (h.sound b (!b) (by simp) i hopen).good.shape.phases.1
  have hfit := h.fits b i
  cases hrole : role b i with
  | unused => exact absurd hrole hne
  | acceptor l =>
    rw [hrole] at hfit
    exact hfit.2
  | _ => exact hopens (by simp [hrole, Role.Opens])

omit hbc in
theorem unused_of_idle (hi : (n b).ends i = .blank .idle) : role b i = .unused := by
  by_contra hne
  exact h.ne_idle hne (by rw [hi]; rfl)

theorem quiet (hends : ∀ i, (n' b).ends i = (n b).ends i ∨
      (n b).ends i = .blank .idle ∧ (n' b).ends i = .blank .gone)
    (hpartner : (n' b).partner = (n b).partner) (hout : (n' b).out = (n b).out)
    (hother : n' c = n c) : Table drop n' role := by
  have hsame : ∀ i, role b i ≠ .unused → (n' b).ends i = (n b).ends i := by
    intro i hne
    rcases hends i with he | ⟨hi, _⟩
    · exact he
    · exact absurd (h.unused_of_idle hi) hne
  refine ⟨h.pair, fun d i => ?_, fun d e hde f hf => ?_, fun d e hde l hl => ?_⟩
  · by_cases hd : d = b
    · subst hd
      rcases hends i with he | ⟨hi, hi'⟩
      · exact fits_congr he (by rw [hpartner]) (h.fits d i)
      · have hfit := h.fits d i
        rw [h.unused_of_idle hi] at hfit ⊢
        exact ⟨by rw [hpartner]; exact hfit.1, .inr hi'⟩
    · rcases sides hbc (Ne.symm hd) with ⟨_, rfl⟩ | ⟨he, _⟩
      · rw [hother]
        exact h.fits d i
      · exact absurd he hbc
  · rcases sides hbc hde with ⟨rfl, rfl⟩ | ⟨rfl, rfl⟩
    · exact h.frames d e hde f (hout ▸ hf)
    · exact h.frames d e hde f (hother ▸ hf)
  · have hold := h.sound d e hde l hl
    rcases sides hbc hde with ⟨rfl, rfl⟩ | ⟨rfl, rfl⟩
    · have hl' : role d l ≠ .unused := fun he => by simp [he, Role.Opens] at hl
      rwa [stream, hother, hsame l hl', Node.sentBy, hout]
    · have hright : (role d l).rightEnd (n' e) = (role d l).rightEnd (n e) := by
        refine rightEnd_congr fun r hr => hsame r fun he => ?_
        cases he.symm.trans ((h.pair d e hde l r).mp hr)
      rwa [stream, hother, hright, Node.sentTo, hout]

omit hbc in
theorem sentBy_unused (hi : role b i = .unused) : (n b).sentBy i = [] := by
  refine filterMap_eq_nil_iff.mpr fun f hf => ?_
  have hfit := h.frames b (!b) (by simp) f hf
  cases f with
  | opening src =>
    refine if_neg ?_
    rintro rfl
    cases hi.symm.trans hfit
  | refuse dst => rfl
  | talk src dst m =>
    refine if_neg ?_
    rintro rfl
    rcases hfit with hfit | hfit <;> cases hi.symm.trans hfit

theorem sentTo_unused (hi : role b i = .unused) : (n c).sentTo i = [] := by
  refine filterMap_eq_nil_iff.mpr fun f hf => ?_
  have hfit := h.frames c b hbc.symm f hf
  cases f with
  | opening src => rfl
  | refuse dst =>
    refine if_neg ?_
    rintro rfl
    cases hi.symm.trans hfit
  | talk src dst m =>
    refine if_neg ?_
    rintro rfl
    rcases hfit with hfit | hfit
    · cases hi.symm.trans ((h.pair c b hbc.symm src dst).mp hfit)
    · cases hi.symm.trans ((h.pair b c hbc dst src).mpr hfit)

end Shifts

def setRole (role : Bool → ι → Role ι) (b : Bool) (i : ι) (x : Role ι) : Bool → ι → Role ι :=
  Function.update role b (Function.update (role b) i x)

theorem setRole_self (b : Bool) (i : ι) (x : Role ι) : setRole role b i x b i = x := by
  simp [setRole]

theorem setRole_ne {x : Role ι} {d : Bool} {j : ι} (h : d ≠ b ∨ j ≠ i) :
    setRole role b i x d j = role d j := by
  by_cases hd : d = b
  · subst hd
    simp [setRole, h.resolve_left (by simp)]
  · simp [setRole, hd]

def Single : Role ι → Prop
  | .unused | .asked | .refused => True
  | _ => False

theorem pair_setRole {x : Role ι}
    (hpair : ∀ b c, b ≠ c → ∀ l r, role b l = .initiator r ↔ role c r = .acceptor l)
    (hold : Single (role b i)) (hx : Single x) (d e : Bool) (hde : d ≠ e) (l r : ι) :
    setRole role b i x d l = .initiator r ↔ setRole role b i x e r = .acceptor l := by
  by_cases hl : d = b ∧ l = i
  · obtain ⟨rfl, rfl⟩ := hl
    rw [setRole_self, setRole_ne (.inl hde.symm), ← hpair d e hde]
    constructor
    · rintro rfl
      exact hx.elim
    · intro he
      rw [he] at hold
      exact hold.elim
  by_cases hr : e = b ∧ r = i
  · obtain ⟨rfl, rfl⟩ := hr
    rw [setRole_self, setRole_ne (.inl hde), hpair d e hde]
    constructor
    · intro he
      rw [he] at hold
      exact hold.elim
    · rintro rfl
      exact hx.elim
  · rw [setRole_ne (not_and_or.mp hl), setRole_ne (not_and_or.mp hr)]
    exact hpair d e hde l r

theorem frameFits_setRole {x : Role ι} {d e : Bool} {f : Frame ι α} (h : f.Fits (role d) (role e))
    (hby : d = b → f.sentBy i = none) (hto : e = b → f.sentTo i = none) :
    f.Fits (setRole role b i x d) (setRole role b i x e) := by
  have hsrc : ∀ src, (d = b → src ≠ i) → setRole role b i x d src = role d src := by
    intro src hne
    refine setRole_ne ?_
    by_cases hd : d = b
    · exact .inr (hne hd)
    · exact .inl hd
  cases f with
  | opening src =>
    refine (hsrc src fun hd hs => ?_).trans h
    simpa [Frame.sentBy, hs] using hby hd
  | refuse dst =>
    refine (setRole_ne ?_).trans h
    by_cases he : e = b
    · refine .inr fun hs => ?_
      simpa [Frame.sentTo, hs] using hto he
    · exact .inl he
  | talk src dst m =>
    have hs : setRole role b i x d src = role d src := by
      refine hsrc src fun hd hs => ?_
      simpa [Frame.sentBy, hs] using hby hd
    exact h.imp hs.trans hs.trans

theorem sentBy_eq_none {m : Node ι α} (h : m.sentBy i = []) {f : Frame ι α} (hf : f ∈ m.out) :
    f.sentBy i = none := filterMap_eq_nil_iff.mp h f hf

theorem sentTo_eq_none {m : Node ι α} (h : m.sentTo i = []) {f : Frame ι α} (hf : f ∈ m.out) :
    f.sentTo i = none := filterMap_eq_nil_iff.mp h f hf

section Requests

variable (h : Table drop n role) (hbc : b ≠ c)

include h hbc

theorem ask (hs : Shift n n' b c i [] [.opening i])
    (hi : (n b).ends i = .blank .idle) (hi' : (n' b).ends i = .blank .pending)
    (hp : (n' b).partner i = (n b).partner i) : Table drop n' (setRole role b i .asked) := by
  have hun := h.unused_of_idle hi
  have hby := h.sentBy_unused hun
  have hto := h.sentTo_unused hbc hun
  refine ⟨pair_setRole h.pair (by rw [hun]; trivial) trivial, fun d j => ?_,
    fun d e hde f hf => ?_, fun d e hde l hl => ?_⟩
  · by_cases hj : d = b ∧ j = i
    · obtain ⟨rfl, rfl⟩ := hj
      have hfit := h.fits d j
      rw [hun] at hfit
      rw [setRole_self]
      exact hp.trans hfit.1
    · rw [setRole_ne (not_and_or.mp hj)]
      exact h.fits_shift hbc hs (not_and_or.mp hj)
  · rcases h.frames_shift hbc hs hde hf with ⟨hf, hfit⟩ | ⟨rfl, rfl, hf⟩
    · refine frameFits_setRole hfit (fun hd => sentBy_eq_none hby (hd ▸ hf)) fun he => ?_
      rcases sides hbc hde with ⟨_, rfl⟩ | ⟨rfl, _⟩
      · exact absurd he.symm hbc
      · exact sentTo_eq_none hto hf
    · cases mem_singleton.mp hf
      exact setRole_self d i .asked
  by_cases hli : d = b ∧ l = i
  · obtain ⟨rfl, rfl⟩ := hli
    obtain rfl : e = c := other_side hbc.symm hde
    have hopen : ([.opening l] : List (Frame ι α)).filterMap (Frame.sentBy l) = [.opening] := by
      simp [Frame.sentBy]
    have hto' : (n' e).sentTo l = [] := (sentTo_rest hs.otherOut l).symm.trans hto
    rw [stream, setRole_self, hi', sentBy_append hs.out, hby, hopen, hto']
    exact Stream.Sound.asked
  rw [setRole_ne (not_and_or.mp hli)] at hl ⊢
  rcases sides hbc hde with ⟨rfl, rfl⟩ | ⟨rfl, rfl⟩
  · have hli' : l ≠ i := fun he => hli ⟨rfl, he⟩
    exact h.sound_near hbc hs hl (hs.ends l hli') (by simp [Frame.sentBy, hli'.symm]) rfl
  · refine h.sound_far hbc hs hl (fun r hr => hs.ends r ?_) rfl rfl
    rintro rfl
    cases hun.symm.trans ((h.pair d e hde l r).mp hr)

theorem asked_alone (hs : Shift n n' b c i [.opening src] fs) :
    role c src = .asked ∧ (n' c).sentBy src = [] ∧ (n b).sentTo src = [] := by
  have hfit : role c src = .asked := h.frames c b hbc.symm (.opening src) (by simp [hs.otherOut])
  have hshape := (h.sound c b hbc.symm src (by rw [hfit]; trivial)).good.shape
  have hby : (n c).sentBy src = .opening :: (n' c).sentBy src := by
    rw [sentBy_rest hs.otherOut]
    simp [Frame.sentBy]
  rw [stream, hfit, hby] at hshape
  obtain ⟨_, hlr, hrl⟩ := hshape.idle_right
  exact ⟨hfit, (cons.inj hlr).2, hrl⟩

/-- The stream that was asked for, once the request has been taken and answered with `m`. -/
theorem sound_answered (hs : Shift n n' b c i [.opening src] fs) (hasked : role c src = .asked)
    {m : Msg α} (hfs : fs.filterMap (Frame.sentTo src) = [m]) {x : End α}
    (ha : Act (.blank .idle) (some .opening) (some m) x) :
    Stream.Sound drop ⟨(n' c).ends src, x, (n' c).sentBy src, (n' b).sentTo src⟩ := by
  have hold := h.sound c b hbc.symm src (by rw [hasked]; trivial)
  have hby : (n c).sentBy src = (some .opening : Option (Msg α)).toList ++ (n' c).sentBy src := by
    rw [sentBy_rest hs.otherOut]
    simp [Frame.sentBy]
  rw [stream, hasked, hby] at hold
  rw [hs.otherEnds, sentTo_append hs.out, hfs]
  exact hold.right ha

theorem refuse (hs : Shift n n' b c i [.opening src] [.refuse src])
    (hends : ∀ j, (n' b).ends j = (n b).ends j)
    (hp : (n' b).partner i = (n b).partner i) : Table drop n' (setRole role c src .refused) := by
  obtain ⟨hasked, hby, hto⟩ := h.asked_alone hbc hs
  refine ⟨pair_setRole h.pair (by rw [hasked]; trivial) trivial, fun d j => ?_,
    fun d e hde f hf => ?_, fun d e hde l hl => ?_⟩
  · have hfit := h.fits_at hbc hs (fits_congr (hends i) hp (h.fits b i)) d j
    by_cases hj : d = c ∧ j = src
    · obtain ⟨rfl, rfl⟩ := hj
      rw [hasked] at hfit
      rw [setRole_self]
      exact hfit
    · rw [setRole_ne (not_and_or.mp hj)]
      exact hfit
  · rcases h.frames_shift hbc hs hde hf with ⟨hf', hfit⟩ | ⟨rfl, rfl, hf⟩
    · refine frameFits_setRole hfit (fun hd => sentBy_eq_none hby (hd ▸ hf)) fun he => ?_
      rcases sides hbc hde with ⟨rfl, _⟩ | ⟨_, rfl⟩
      · exact sentTo_eq_none hto hf'
      · exact absurd he hbc
    · cases mem_singleton.mp hf
      exact setRole_self e src .refused
  by_cases hls : d = c ∧ l = src
  · obtain ⟨rfl, rfl⟩ := hls
    obtain rfl : e = b := other_side hbc hde
    rw [stream, setRole_self]
    exact h.sound_answered hbc hs hasked (by simp [Frame.sentTo]) .refuse
  rw [setRole_ne (not_and_or.mp hls)] at hl ⊢
  rcases sides hbc hde with ⟨rfl, rfl⟩ | ⟨rfl, rfl⟩
  · exact h.sound_near hbc hs hl (hends l) rfl rfl
  · have hls' : l ≠ src := fun he => hls ⟨rfl, he⟩
    exact h.sound_far hbc hs hl (fun r _ => hends r) (by simp [Frame.sentBy, hls'.symm])
      (by simp [Frame.sentTo, hls'.symm])

end Requests

/-- The roles once the end `i` of `b` has accepted the stream of the end `src` of `c`. -/
structure Accepted (role role' : Bool → ι → Role ι) (b c : Bool) (i src : ι) : Prop where
  near : ∀ j, j ≠ i → role' b j = role b j
  far : ∀ j, j ≠ src → role' c j = role c j
  acceptor : role' b i = .acceptor src
  initiator : role' c src = .initiator i

theorem accepted_setRole (hbc : b ≠ c) (role : Bool → ι → Role ι) (i src : ι) :
    Accepted role (setRole (setRole role c src (.initiator i)) b i (.acceptor src)) b c i src where
  near _ hj := (setRole_ne (.inr hj)).trans (setRole_ne (.inl hbc))
  far _ hj := (setRole_ne (.inl hbc.symm)).trans (setRole_ne (.inr hj))
  acceptor := setRole_self _ _ _
  initiator := (setRole_ne (.inl hbc.symm)).trans (setRole_self _ _ _)

theorem Accepted.pair (ha : Accepted role role' b c i src) (hbc : b ≠ c)
    (hpair : ∀ b c, b ≠ c → ∀ l r, role b l = .initiator r ↔ role c r = .acceptor l)
    (hun : role b i = .unused) (hasked : role c src = .asked) (d e : Bool) (hde : d ≠ e) (l r : ι) :
    role' d l = .initiator r ↔ role' e r = .acceptor l := by
  rcases sides hbc hde with ⟨rfl, rfl⟩ | ⟨rfl, rfl⟩
  · by_cases hl : l = i
    · subst hl
      rw [ha.acceptor]
      refine iff_of_false (by simp) fun hr => ?_
      by_cases hrs : r = src
      · subst hrs
        cases ha.initiator.symm.trans hr
      · cases hun.symm.trans ((hpair d e hde l r).mpr ((ha.far r hrs).symm.trans hr))
    · rw [ha.near l hl]
      by_cases hrs : r = src
      · subst hrs
        rw [ha.initiator]
        refine iff_of_false (fun hr => ?_) (by simp)
        cases hasked.symm.trans ((hpair d e hde l r).mp hr)
      · rw [ha.far r hrs]
        exact hpair d e hde l r
  · by_cases hl : l = src
    · subst hl
      rw [ha.initiator]
      by_cases hri : r = i
      · subst hri
        exact iff_of_true rfl ha.acceptor
      · refine iff_of_false (fun hr => hri (Role.initiator.inj hr).symm) fun hr => ?_
        rw [ha.near r hri] at hr
        cases hasked.symm.trans ((hpair d e hde l r).mpr hr)
    · rw [ha.far l hl]
      by_cases hri : r = i
      · subst hri
        rw [ha.acceptor]
        refine iff_of_false (fun hr => ?_) fun hr => hl (Role.acceptor.inj hr).symm
        cases hun.symm.trans ((hpair d e hde l r).mp hr)
      · rw [ha.near r hri]
        exact hpair d e hde l r

section Runs

variable (h : Table drop n role) (hbc : b ≠ c)

include h hbc

theorem accept (hs : Shift n n' b c i [.opening src] [.talk i src .okay])
    (hi : (n b).ends i = .blank .idle) (hi' : (n' b).ends i = .joined)
    (hp : (n' b).partner i = some src) :
    Table drop n' (setRole (setRole role c src (.initiator i)) b i (.acceptor src)) := by
  obtain ⟨hasked, hby, hto⟩ := h.asked_alone hbc hs
  have hun := h.unused_of_idle hi
  have ha := accepted_setRole hbc role i src
  refine ⟨ha.pair hbc h.pair hun hasked, fun d j => ?_, fun d e hde f hf => ?_,
    fun d e hde l hl => ?_⟩
  · by_cases hj : d = b ∧ j = i
    · obtain ⟨rfl, rfl⟩ := hj
      rw [ha.acceptor]
      exact ⟨hp, by rw [hi']; simp [End.joined]⟩
    have hfit := h.fits_shift hbc hs (not_and_or.mp hj)
    by_cases hjs : d = c ∧ j = src
    · obtain ⟨rfl, rfl⟩ := hjs
      rw [hasked] at hfit
      rw [ha.initiator]
      have hshape := (h.sound d b hbc.symm j (by rw [hasked]; trivial)).good.shape
      rw [stream, hasked] at hshape
      refine .inr ⟨hfit, ?_⟩
      rw [hs.otherEnds]
      exact hshape.idle_right.1
    · rw [setRole_ne (not_and_or.mp hj), setRole_ne (not_and_or.mp hjs)]
      exact hfit
  · rcases h.frames_shift hbc hs hde hf with ⟨hf', hfit⟩ | ⟨rfl, rfl, hf⟩
    · refine frameFits_setRole (frameFits_setRole hfit (fun hd => ?_) fun he => ?_)
        (fun hd => ?_) fun he => ?_
      · exact sentBy_eq_none hby (hd ▸ hf)
      · subst he
        obtain rfl : d = b := other_side hbc hde.symm
        exact sentTo_eq_none hto hf'
      · exact sentBy_eq_none (h.sentBy_unused hun) (hd ▸ hf')
      · subst he
        exact sentTo_eq_none (h.sentTo_unused hde.symm hun) hf'
    · cases mem_singleton.mp hf
      exact .inr ha.acceptor
  by_cases hls : d = c ∧ l = src
  · obtain ⟨rfl, rfl⟩ := hls
    obtain rfl : e = b := other_side hbc hde
    have hright : (Role.initiator i).rightEnd (n' e) = .joined := hi'
    rw [stream, ha.initiator, hright]
    exact h.sound_answered hbc hs hasked (by simp [Frame.sentTo]) .accept
  rcases sides hbc hde with ⟨rfl, rfl⟩ | ⟨rfl, rfl⟩
  · have hli : l ≠ i := by
      rintro rfl
      rw [ha.acceptor] at hl
      exact hl
    rw [ha.near l hli] at hl ⊢
    exact h.sound_near hbc hs hl (hs.ends l hli) (by simp [Frame.sentBy, hli.symm]) rfl
  · have hls' : l ≠ src := fun he => hls ⟨rfl, he⟩
    rw [ha.far l hls'] at hl ⊢
    refine h.sound_far hbc hs hl (fun r hr => hs.ends r ?_) (by simp [Frame.sentBy, hls'.symm])
      (by simp [Frame.sentTo, hls'.symm])
    rintro rfl
    cases hun.symm.trans ((h.pair d e hde l r).mp hr)

omit hbc in
theorem used_of_act {e : End α} (ha : Act ((n b).ends i) none o e) : role b i ≠ .unused := by
  intro hun
  have hfit := h.fits b i
  rw [hun] at hfit
  have hawake := ha.awake
  rcases hfit.2 with he | he <;> rw [he] at hawake
  · exact hawake.1 rfl
  · exact hawake.2 rfl

theorem act (hother : n' c = n c)
    (ha : Act ((n b).ends i) none o ((n' b).ends i)) (hd : ((n b).ends i).phase = .pending → drop)
    (hne : ∀ j, j ≠ i → (n' b).ends j = (n b).ends j) (hpartner : (n' b).partner = (n b).partner)
    (hr : o ≠ none → (n b).partner i = some r)
    (hout : (n' b).out = (n b).out ++ o.toList.map (.talk i r)) : Table drop n' role := by
  have hs : ∀ r', (o ≠ none → r' = r) → Shift n n' b c i [] (o.toList.map (.talk i r')) := by
    intro r' hr'
    refine ⟨hne, fun j _ => by rw [hpartner], ?_, by rw [hother], by rw [hother],
      by rw [hother]; rfl⟩
    cases o with
    | none => exact hout
    | some m => rw [hr' (by simp), hout]
  have hfit := h.fits b i
  have hused := h.used_of_act ha
  cases hrole : role b i with
  | unused => exact absurd hrole hused
  | acceptor l =>
    rw [hrole] at hfit
    refine h.right hbc (hs l fun ho => Option.some.inj (hfit.1.symm.trans (hr ho))) ha hrole rfl
      (fun _ _ => rfl) (fun _ _ => rfl) ?_
    rw [hrole]
    exact ⟨by rw [hpartner]; exact hfit.1, ha.turn.ne_idle hfit.2⟩
  | initiator r' =>
    rw [hrole] at hfit
    refine h.left hbc (hs r' fun ho => ?_) ha (by rw [hrole]; trivial) (fun _ => hrole) rfl
      (fun _ _ => rfl) (fun _ _ => rfl) (fun hp _ => hd hp) ?_
    · have hpr := hr ho
      rcases hfit with hfit | hfit
      · exact Option.some.inj (hfit.symm.trans hpr)
      · cases hfit.1.symm.trans hpr
    · rw [hrole]
      refine hfit.imp (fun hfit => by rw [hpartner]; exact hfit) fun hfit => ?_
      exact ⟨by rw [hpartner]; exact hfit.1, ha.turn.waiting hfit.2 (by simp)⟩
  | asked | refused =>
    rw [hrole] at hfit
    refine h.left hbc (hs r fun _ => rfl) ha (by rw [hrole]; trivial) (fun ho => ?_) rfl
      (fun _ _ => rfl) (fun _ _ => rfl) (fun hp _ => hd hp) ?_
    · cases hfit.symm.trans (hr ho)
    · rw [hrole]
      exact (congrFun hpartner i).trans hfit

theorem local_ (hl : Local drop (n b) (n' b))
    (hother : n' c = n c) : ∃ role', Table drop n' role' := by
  cases hl with
  | quiet hends hpartner hout => exact ⟨role, h.quiet hbc hends hpartner hout hother⟩
  | @ask i hi hi' hne hpartner hout =>
    refine ⟨_, h.ask (i := i) hbc ⟨hne, fun j _ => by rw [hpartner], hout, by rw [hother],
      by rw [hother], by rw [hother]; rfl⟩ hi hi' (by rw [hpartner])⟩
  | act ha hd hne hpartner hr hout =>
    exact ⟨role, h.act hbc hother ha hd hne hpartner hr hout⟩

theorem takes {f : Frame ι α} {rest : List (Frame ι α)}
    (hf : (n c).out = f :: rest) (ht : Takes (n b) (n' b) f)
    (hother : n' c = { n c with out := rest }) : ∃ role', Table drop n' role' := by
  have hotherOut : (n c).out = [f] ++ (n' c).out := by
    rw [hf, hother]
    rfl
  have hfits := h.frames c b hbc.symm f (by simp [hf])
  cases ht with
  | accept hi hi' hne hp hpne hout =>
    exact ⟨_, h.accept hbc ⟨hne, hpne, hout, by rw [hother], by rw [hother], hotherOut⟩ hi hi' hp⟩
  | @refuse src hends hpartner hout =>
    exact ⟨_, h.refuse (i := src) hbc
      ⟨fun j _ => by rw [hends], fun j _ => by rw [hpartner], hout,
      by rw [hother], by rw [hother], hotherOut⟩ (fun j => by rw [hends]) (by rw [hpartner])⟩
  | @refused dst ha hne hpartner hout =>
    have hrole : role b dst = .refused := hfits
    have hfit := h.fits b dst
    rw [hrole] at hfit
    have hs : Shift n n' b c dst [.refuse dst]
        ((none : Option (Msg α)).toList.map (.talk dst dst)) :=
      ⟨hne, fun j _ => by rw [hpartner], by rw [hout]; exact (append_nil _).symm,
        by rw [hother], by rw [hother], hotherOut⟩
    refine ⟨role, h.left hbc hs ha (by rw [hrole]; trivial) (fun ho => absurd rfl ho) ?_
      (fun l hl => ?_) (fun _ _ => rfl) (fun _ hi => absurd hi (by simp)) ?_⟩
    · simp [Frame.sentTo]
    · simp [Frame.sentTo, hl.symm]
    · rw [hrole]
      exact (congrFun hpartner dst).trans hfit
  | @talk src dst m o ha hne hp hpne hout =>
    have hs : Shift n n' b c dst [.talk src dst m] (o.toList.map (.talk dst src)) :=
      ⟨hne, hpne, hout, by rw [hother], by rw [hother], hotherOut⟩
    have hfit := h.fits b dst
    rcases hfits with hinit | hacc
    · have hrole : role b dst = .acceptor src := (h.pair c b hbc.symm src dst).mp hinit
      rw [hrole] at hfit
      refine ⟨role, h.right hbc hs ha hrole ?_ (fun l hl => ?_) (fun j hj => ?_) ?_⟩
      · simp [Frame.sentBy]
      · simp [Frame.sentBy, hl.symm]
      · simp [Frame.sentTo, hj.symm]
      · rw [hrole]
        exact ⟨hp.elim id fun hp => hp.1.trans hfit.1, ha.turn.ne_idle hfit.2⟩
    · have hrole : role b dst = .initiator src := (h.pair b c hbc dst src).mpr hacc
      rw [hrole] at hfit
      refine ⟨role, h.left hbc hs ha (by rw [hrole]; trivial) (fun _ => hrole) ?_ (fun l hl => ?_)
        (fun l hl => ?_) (fun _ hi => absurd hi (by simp)) ?_⟩
      · simp [Frame.sentTo]
      · simp [Frame.sentTo, hl.symm]
      · have hls : src ≠ l := by
          rintro rfl
          rw [hacc] at hl
          exact hl
        simp [Frame.sentBy, hls]
      · rw [hrole]
        rcases hp with hp | ⟨hp, hphase⟩
        · exact .inl hp
        · exact hfit.imp hp.trans fun hfit => ⟨hp.trans hfit.1, hphase⟩

theorem expects {f : Frame ι α} {rest : List (Frame ι α)}
    (hf : (n c).out = f :: rest) : (n b).Expects f := by
  have hfits := h.frames c b hbc.symm f (by simp [hf])
  cases f with
  | opening src => trivial
  | refuse dst =>
    have hrole : role b dst = .refused := hfits
    have hfit := h.fits b dst
    have hshape := (h.sound b c hbc dst (by rw [hrole]; trivial)).good.shape
    rw [hrole] at hfit
    rw [stream, hrole] at hshape
    exact ⟨hfit, hshape.gone_right⟩
  | talk src dst m =>
    have hfit := h.fits b dst
    rcases hfits with hinit | hacc
    · rw [(h.pair c b hbc.symm src dst).mp hinit] at hfit
      exact .inl hfit.1
    · rw [(h.pair b c hbc dst src).mpr hacc] at hfit
      exact hfit

omit hbc in
/-- An end that knows its partner is the initiator or the acceptor of a stream. -/
theorem role_of_partner (hp : (n b).partner l = some r) :
    role b l = .initiator r ∨ role b l = .acceptor r := by
  have hfit := h.fits b l
  cases hrole : role b l with
  | unused =>
    rw [hrole] at hfit
    cases hfit.1.symm.trans hp
  | asked | refused =>
    rw [hrole] at hfit
    cases Eq.trans (Eq.symm hfit) hp
  | initiator r' =>
    rw [hrole] at hfit
    rcases hfit with hfit | hfit
    · exact .inl (by rw [Option.some.inj (hfit.symm.trans hp)])
    · cases hfit.1.symm.trans hp
  | acceptor r' =>
    rw [hrole] at hfit
    exact .inr (by rw [Option.some.inj (hfit.1.symm.trans hp)])

/-- The partner of an end knows it, or still waits for the answer. -/
theorem partner_back (hp : (n b).partner l = some r) :
    (n c).partner r = some l ∨ (n c).partner r = none ∧
      (((n c).ends r).phase = .pending ∨ ((n c).ends r).phase = .gone) := by
  have hfit := h.fits c r
  rcases h.role_of_partner hp with hrole | hrole
  · rw [(h.pair b c hbc l r).mp hrole] at hfit
    exact .inl hfit.1
  · rw [(h.pair c b hbc.symm r l).mpr hrole] at hfit
    exact hfit

end Runs

theorem agree_of_empty (h : Table False n role) (hbc : b ≠ c) (hb : (n b).out = [])
    (hc : (n c).out = []) (hcon : (n b).Connected l r) : (n c).Connected r l := by
  have hnil : ∀ {d : Bool} (j : ι), (n d).out = [] → (n d).sentBy j = [] ∧ (n d).sentTo j = [] := by
    intro d j hd
    rw [Node.sentBy, Node.sentTo, hd]
    exact ⟨rfl, rfl⟩
  rcases h.role_of_partner hcon.1 with hrole | hrole
  · have hs := h.sound b c hbc l (by rw [hrole]; trivial)
    rw [stream, hrole, (hnil l hb).1, (hnil l hc).2] at hs
    have hfit := h.fits c r
    rw [(h.pair b c hbc l r).mp hrole] at hfit
    exact ⟨hfit.1, (hs.good.agree (hs.kept.resolve_left id)).mp hcon.2⟩
  · have hrole' := (h.pair c b hbc.symm r l).mpr hrole
    have hs := h.sound c b hbc.symm r (by rw [hrole']; trivial)
    rw [stream, hrole', (hnil r hc).1, (hnil r hb).2] at hs
    have hphase := (hs.good.agree (hs.kept.resolve_left id)).mpr hcon.2
    have hfit := h.fits c r
    rw [hrole'] at hfit
    refine ⟨hfit.resolve_right fun hwait => ?_, hphase⟩
    rcases hwait.2 with hp | hp <;> cases hphase.symm.trans hp

theorem agree (h : Table False n role) (hbc : b ≠ c) (hb : (n b).out = []) (hc : (n c).out = [])
    (l r : ι) : (n b).Connected l r ↔ (n c).Connected r l :=
  ⟨h.agree_of_empty hbc hb hc, h.agree_of_empty hbc.symm hc hb⟩

end Table

def Frame.between (l r : ι) : Frame ι α → Option (Msg α)
  | .talk src dst m => if src = l ∧ dst = r then some m else none
  | _ => none

def Node.between (n : Node ι α) (l r : ι) : List (Msg α) := n.out.filterMap (Frame.between l r)

/-- All that an end with a partner has sent is for the partner. -/
theorem Table.sentBy_eq (h : Table drop n role)
    (hrole : role b l = .initiator r ∨ role b l = .acceptor r) :
    (n b).sentBy l = (n b).between l r := by
  refine filterMap_congr fun f hf => ?_
  have hfit := h.frames b (!b) (by simp) f hf
  cases f with
  | opening src =>
    refine if_neg ?_
    rintro rfl
    rcases hrole with hrole | hrole <;> cases hrole.symm.trans hfit
  | refuse dst => rfl
  | talk src dst m =>
    refine if_congr (iff_self_and.mpr ?_) rfl rfl
    rintro rfl
    rcases hrole with hrole | hrole <;> rcases hfit with hfit | hfit <;>
      cases hrole.symm.trans hfit <;> rfl

theorem Table.sentTo_eq (h : Table drop n role) (hbc : b ≠ c)
    (hrole : role b l = .initiator r ∨ role b l = .acceptor r) :
    (n c).sentTo l = (n c).between r l := by
  refine filterMap_congr fun f hf => ?_
  have hfit := h.frames c b hbc.symm f hf
  cases f with
  | opening src => rfl
  | refuse dst =>
    refine if_neg ?_
    rintro rfl
    rcases hrole with hrole | hrole <;> cases hrole.symm.trans hfit
  | talk src dst m =>
    refine if_congr (iff_and_self.mpr ?_) rfl rfl
    rintro rfl
    have hfit := hfit.imp (h.pair c b hbc.symm src dst).mp (h.pair b c hbc dst src).mpr
    rcases hrole with hrole | hrole <;> rcases hfit with hfit | hfit <;>
      cases hrole.symm.trans hfit <;> rfl

/-- The two directions between an end and its partner. -/
theorem Table.flow (h : Table drop n role) (hbc : b ≠ c) (hp : (n b).partner l = some r) :
    Flow ((n b).ends l) ((n c).ends r) ((n b).between l r) ((n c).between r l) ∧
      Flow ((n c).ends r) ((n b).ends l) ((n c).between r l) ((n b).between l r) := by
  rcases h.role_of_partner hp with hinit | hacc
  · have hs := (h.sound b c hbc l (by rw [hinit]; trivial)).good
    rw [stream, h.sentBy_eq (.inl hinit), h.sentTo_eq hbc (.inl hinit), hinit] at hs
    exact ⟨hs.toRight, hs.toLeft⟩
  · have hinit := (h.pair c b hbc.symm r l).mpr hacc
    have hs := (h.sound c b hbc.symm r (by rw [hinit]; trivial)).good
    rw [stream, h.sentBy_eq (.inl hinit), h.sentTo_eq hbc.symm (.inl hinit), hinit] at hs
    exact ⟨hs.toLeft, hs.toRight⟩

end Table

end Duplex
