import PaxAdb.PacketEnds
import PaxAdb.SocketInvariant

/-!
# Two endpoints

A host and a device run the event loop, each with its own clients and services, and exchange packets
over one transport that delivers in order in both directions. The two together are the two nodes of
`Duplex.Table`, whatever happens at the ends and in whichever order packets arrive.
-/

namespace PaxAdb.Sockets

open Function (update update_self update_of_ne update_idem update_comm update_eq_self
  forall_update_iff)
open ASocket Server Duplex Runs

/-- The host is the endpoint `true`. -/
abbrev Pair := Bool → Server

inductive Event where
  | act (b : Bool) (i : Input)
  /-- the next packet on its way to `b` is delivered -/
  | deliver (b : Bool) (reads : List ReadResult) (writes : List WriteResult) (env : Env)

def Server.delivered (link : TransportId) (rest : List Packet) (w : Server) : Server :=
  { w with outbox := update w.outbox link rest }

def Pair.step (authEnabled : Bool) (link : TransportId) (w : Pair) : Event → Option Pair
  | .act b i =>
      if i.action.atHome then
        (Sockets.step b authEnabled (w b) i).map (update w b)
      else none
  | .deliver b reads writes env =>
      match (w !b).outbox link with
      | [] => none
      | x :: rest =>
          (Sockets.step b authEnabled (w b) ⟨.packet x link, reads, writes, env⟩).map fun v =>
            update (update w b v) (!b) ((w !b).delivered link rest)

def Pair.init (link : TransportId) : Pair := fun b =>
  { Server.init with
    online := update Server.init.online link true
    connectionState := update Server.init.connectionState link
      (if b then .device else .host) }

variable {X : Licence} {drop : Prop} {authEnabled b : Bool} {link : TransportId} {w w' : Pair}
  {v : Server}

section Steps

theorem step_home {u u' : Server} {host : Bool} {i : Input} (h : Graph u)
    (hs : step host authEnabled u i = some u') (hhome : i.action.atHome = true)
    (hX : i.action = .dispatch → DispatchLicence X (i.before u)) : Moves X u u' := by
  obtain ⟨hen, u₁, hrun, rfl⟩ := run_of_step hs
  have hspec := i.action.home_spec host authEnabled (i.graph_before h) i.env hen hX hhome
  rw [hrun] at hspec
  exact .head (.results i.reads i.writes) (.tail hspec (.results [] []))

theorem step_packet {u u' : Server} {host : Bool} {i : Input} {x : Packet} (h : Graph u)
    (hs : step host authEnabled u i = some u') (hi : i.action = .packet x link)
    (hx : x.command.ofConnection = true) :
    ∃ u₁, Receive x link (i.before u) u₁ ∧ u' = { u₁ with reads := [], writes := [] } := by
  obtain ⟨_, u₁, hrun, heq⟩ := run_of_step hs
  rw [hi] at hrun
  have hrule : SetupRule link fun _ => True :=
    ⟨fun _ _ _ => trivial, fun _ _ _ => trivial, fun _ _ _ _ _ _ _ => trivial,
      fun _ _ _ _ _ _ _ _ => trivial⟩
  have hspec := handlePacket_rule host authEnabled i.env hrule ⟨i.graph_before h, trivial⟩ x
  rw [show handlePacket host authEnabled i.env x link (i.before u) = .ok u₁ from hrun] at hspec
  refine ⟨u₁, hspec.resolve_right fun hno => ?_, heq⟩
  exact absurd (hx.symm.trans hno.1) (by simp)

theorem created_le_step {u u' : Server} {host : Bool} {i : Input} (h : Graph u)
    (hs : step host authEnabled u i = some u') : u.created ≤ u'.created := by
  obtain ⟨u₁, hst, rfl⟩ := step_spec (X := ⟨True, True⟩) h hs fun _ _ _ _ _ _ _ _ =>
    ⟨fun _ _ => trivial, fun _ _ _ => trivial⟩
  change (i.before u).created ≤ u₁.created
  cases hst with
  | setup hm => exact Setups.created_le hm
  | receive _ hr => exact hr.grows.created

/-- What one step of the two does: one endpoint takes a step, and the other one is as it was or has
its first packet delivered. -/
theorem Pair.step_cases {e : Event} (hs : Pair.step authEnabled link w e = some w') :
    ∃ b i, Sockets.step b authEnabled (w b) i = some (w' b) ∧
      (w' (!b) = w (!b) ∨ ∃ rest, w' (!b) = (w !b).delivered link rest) := by
  cases e with
  | act b i =>
    simp only [Pair.step] at hs
    split at hs
    · obtain ⟨v, hv, rfl⟩ := Option.map_eq_some_iff.mp hs
      exact ⟨b, i, by rwa [update_self], Or.inl (update_of_ne (by simp) _ _)⟩
    · cases hs
  | deliver b reads writes env =>
    simp only [Pair.step] at hs
    split at hs
    · cases hs
    next x rest _ =>
      obtain ⟨v, hv, rfl⟩ := Option.map_eq_some_iff.mp hs
      refine ⟨b, ⟨.packet x link, reads, writes, env⟩, ?_, Or.inr ⟨rest, ?_⟩⟩
      · rwa [update_of_ne (by simp), update_self]
      · rw [update_self]

theorem Pair.graph_step {e : Event} (hg : ∀ b, Graph (w b))
    (hs : Pair.step authEnabled link w e = some w') :
    ∀ b, Graph (w' b) ∧ (w b).created ≤ (w' b).created := by
  obtain ⟨b, i, hb, hc⟩ := Pair.step_cases hs
  refine (Bool.forall_bool' b).mpr ⟨⟨(hg b).step hb, created_le_step (hg b) hb⟩, ?_⟩
  rcases hc with hc | ⟨rest, hc⟩
  · rw [hc]
    exact ⟨hg !b, le_rfl⟩
  · rw [hc]
    exact ⟨(hg !b).congr rfl rfl rfl rfl rfl rfl rfl rfl, le_rfl⟩

theorem ofConnection_of_frameOf {x : Packet} {f : Frame ℕ Byte} (hx : frameOf x = some f) :
    x.command.ofConnection = true := by
  unfold frameOf at hx
  unfold Command.ofConnection
  split at hx <;> simp_all

end Steps

section Invariant

/-- The two endpoints as two nodes. A socket that waits for its connection is given up under the
condition `drop` only. -/
structure Pair.Sound (drop : Prop) (link : TransportId) (w : Pair) : Prop where
  tied : ∀ b, (w b).Tied link
  online : ∀ b, (w b).online link = true
  table : ∃ out : Bool → List (Frame ℕ Byte), (∀ b, (w b).Framed link (out b)) ∧
    ∃ role, Table drop (fun b => (w b).node link (out b)) role

namespace Pair.Sound

theorem move (h : w.Sound X.drop link) (hg : Graph (w b)) (hm : Move X (w b) v)
    (hlt : v.created < 2 ^ 32) : Pair.Sound X.drop link (update w b v) := by
  obtain ⟨out, hframed, role, htable⟩ := h.table
  obtain ⟨out', hframed', hlocal⟩ := hm.simulated hg (h.tied b) hlt (out b) (hframed b)
  refine ⟨(forall_update_iff w fun _ u => u.Tied link).mpr
      ⟨hm.tied hg (h.tied b) hlt, fun c _ => h.tied c⟩,
    (forall_update_iff w fun _ u => u.online link = true).mpr
      ⟨(congrFun hm.grows.online link).trans (h.online b), fun c _ => h.online c⟩,
    update out b out',
    (forall_update_iff w fun c u => u.Framed link (update out b out' c)).mpr
      ⟨?_, fun c hc => ?_⟩, ?_⟩
  · rwa [update_self]
  · rw [update_of_ne hc]
    exact hframed c
  · refine htable.local_ (b := b) (c := !b) (by simp) ?_ ?_
    · simpa only [update_self] using hlocal
    · simp only [update_of_ne (Bool.not_ne_self b)]

theorem moves (h : w.Sound X.drop link) (hg : Graph (w b)) (hm : Moves X (w b) v)
    (hlt : v.created < 2 ^ 32) : Pair.Sound X.drop link (update w b v) := by
  induction hm with
  | refl => rwa [update_eq_self]
  | @tail v v' hms hm ih =>
    have hle := hm.grows.created
    have hs := ih (hle.trans_lt hlt)
    have hv : update w b v b = v := update_self _ _ _
    have hstep := hs.move (b := b) (v := v') (by rw [hv]; exact Moves.graph hms hg)
      (by rwa [hv]) hlt
    rwa [update_idem] at hstep

theorem next (h : w.Sound drop link) {x : Packet} {rest : List Packet}
    (hbox : (w !b).outbox link = x :: rest) :
    ∃ (out : Bool → List (Frame ℕ Byte)) (f : Frame ℕ Byte) (fs : List (Frame ℕ Byte)),
      frameOf x = some f ∧ rest.map frameOf = fs.map some ∧ out (!b) = f :: fs ∧
      (∀ c, (w c).Framed link (out c)) ∧
      ∃ role, Table drop (fun c => (w c).node link (out c)) role := by
  obtain ⟨out, hframed, htable⟩ := h.table
  have hout := hframed (!b)
  rw [Server.Framed, hbox, List.map_cons] at hout
  cases hf : out (!b) with
  | nil => simp [hf] at hout
  | cons f fs =>
    rw [hf, List.map_cons] at hout
    obtain ⟨hx, hrest⟩ := List.cons.inj hout
    exact ⟨out, f, fs, hx, hrest, hf, hframed, htable⟩

theorem receive (h : w.Sound drop link) (hg : ∀ c, Graph (w c)) {x : Packet} {rest : List Packet}
    (hbox : (w !b).outbox link = x :: rest) (hr : Receive x link (w b) v)
    (hlt : v.created < 2 ^ 32) (hb : w' b = v) (hc : w' (!b) = (w !b).delivered link rest) :
    w'.Sound drop link := by
  obtain ⟨out, f, fs, hx, hrest, hf, hframed, role, htable⟩ := h.next hbox
  have hne : b ≠ !b := by simp
  have hexp := htable.expects hne hf
  obtain ⟨out', hframed', htakes⟩ :=
    hr.handled (hg b) (h.tied b) (h.online b) hlt hx hexp (out b) (hframed b)
  have hout : update (fun _ => fs) b out' (!b) = fs := update_of_ne hne.symm _ _
  refine ⟨(Bool.forall_bool' b).mpr ⟨?_, ?_⟩, (Bool.forall_bool' b).mpr ⟨?_, ?_⟩,
    update (fun _ => fs) b out', (Bool.forall_bool' b).mpr ⟨?_, ?_⟩, ?_⟩
  · rw [hb]
    exact hr.tied (hg b) (h.tied b) hlt
  · rw [hc]
    have hg' : Graph ((w !b).delivered link rest) :=
      (hg !b).congr rfl rfl rfl rfl rfl rfl rfl rfl
    exact (h.tied !b).congr hg' ⟨rfl, rfl, rfl, rfl, le_rfl, fun _ => rfl⟩ rfl rfl
  · rw [hb, hr.grows.online]
    exact h.online b
  · rw [hc]
    exact h.online !b
  · rwa [hb, update_self]
  · rw [hc, hout]
    exact (congrArg (List.map frameOf)
      (update_self link rest (w !b).outbox)).trans hrest
  · refine htable.takes hne hf ?_ ?_
    · rw [hb, update_self]
      exact htakes
    · rw [hc, hout]
      rfl

end Pair.Sound

def Event.Allowed (drop : Prop) (w : Pair) : Event → Prop
  | .act b i => i.action = .dispatch → DispatchLicence ⟨True, drop⟩ (i.before (w b))
  | .deliver .. => True

theorem Event.allowed (e : Event) (w : Pair) : e.Allowed True w := by
  cases e with
  | act => exact fun _ _ _ _ _ _ _ _ => ⟨fun _ _ => trivial, fun _ _ _ => trivial⟩
  | deliver => trivial

theorem Pair.Sound.step {e : Event} (h : w.Sound drop link) (hg : ∀ b, Graph (w b))
    (hok : e.Allowed drop w) (hs : Pair.step authEnabled link w e = some w')
    (hlt : ∀ b, (w' b).created < 2 ^ 32) : w'.Sound drop link := by
  cases e with
  | act b i =>
    simp only [Pair.step] at hs
    split at hs
    next hhome =>
      obtain ⟨v, hv, rfl⟩ := Option.map_eq_some_iff.mp hs
      have hm : Moves ⟨True, drop⟩ (w b) v := step_home (hg b) hv hhome hok
      have hb := hlt b
      rw [update_self] at hb
      exact h.moves (hg b) hm hb
    · cases hs
  | deliver b reads writes env =>
    simp only [Pair.step] at hs
    split at hs
    · cases hs
    next x rest hbox =>
      obtain ⟨v, hv, rfl⟩ := Option.map_eq_some_iff.mp hs
      obtain ⟨_, f, _, hx, _⟩ := h.next hbox
      obtain ⟨v₁, hr, rfl⟩ := step_packet (hg b) hv rfl (ofConnection_of_frameOf hx)
      have hne : b ≠ !b := by simp
      have hb : v₁.created < 2 ^ 32 := by
        have hb := hlt b
        rwa [update_of_ne hne, update_self] at hb
      -- the results of the kernel are put in store, the packet is received, and what is left of
      -- the results is thrown away
      let i : Input := ⟨.packet x link, reads, writes, env⟩
      have hi : Move ⟨True, drop⟩ (w b) (i.before (w b)) := .results reads writes
      have hsound := h.move (hg b) hi (hr.grows.created.trans_lt hb)
      have hb₀ : update w b (i.before (w b)) b = i.before (w b) :=
        update_self _ _ _
      have hc₀ : update w b (i.before (w b)) (!b) = w !b :=
        update_of_ne hne.symm _ _
      have hg₀ : ∀ c, Graph (update w b (i.before (w b)) c) :=
        (forall_update_iff w fun _ u => Graph u).mpr
          ⟨hi.graph (hg b), fun c _ => hg c⟩
      have hrecv : Pair.Sound drop link
          (update (update w b v₁) (!b) ((w !b).delivered link rest)) := by
        refine hsound.receive (v := v₁) hg₀ (hc₀ ▸ hbox) ?_ hb ?_ ?_
        · rwa [hb₀]
        · rw [update_of_ne hne, update_self]
        · rw [update_self, hc₀]
      have hv₁ : update (update w b v₁) (!b)
          ((w !b).delivered link rest) b = v₁ := by
        rw [update_of_ne hne, update_self]
      have hgv : Graph (update (update w b v₁) (!b)
          ((w !b).delivered link rest) b) := by
        rw [hv₁]
        exact hr.graph (hi.graph (hg b))
      have hfinal := hrecv.move (X := ⟨True, drop⟩) hgv (.results [] []) (by rwa [hv₁])
      rwa [hv₁, update_comm hne.symm, update_idem] at hfinal

theorem Pair.sound_init (link : TransportId) : (Pair.init link).Sound drop link where
  tied b := by
    refine ⟨fun a s ha => ?_, fun i a ho => ?_, fun _ => rfl⟩
    · cases ha
    · cases ho
  online b := update_self _ _ _
  table := ⟨fun _ => [], fun _ => rfl, fun _ _ => .unused,
    Table.init (fun _ _ => rfl) (fun _ _ => rfl) fun _ => rfl⟩

/-- The invariant of every run in which fewer than `2 ^ 32` sockets are created at each end. -/
theorem Pair.run_sound (hrun : Run (Pair.step authEnabled link) (fun w e => e.Allowed drop w)
    (Pair.init link) w) :
    (∀ b, Graph (w b)) ∧ ((∀ b, (w b).created < 2 ^ 32) → w.Sound drop link) := by
  refine hrun.invariant (I := fun w => (∀ b, Graph (w b)) ∧
    ((∀ b, (w b).created < 2 ^ 32) → w.Sound drop link))
    ⟨fun b => graph_init.congr rfl rfl rfl rfl rfl rfl rfl rfl, fun _ => Pair.sound_init link⟩ ?_
  rintro w e w' ⟨hg, hsound⟩ hok hs
  have hstep := Pair.graph_step hg hs
  refine ⟨fun b => (hstep b).1, fun hlt => ?_⟩
  exact (hsound fun b => (hstep b).2.trans_lt (hlt b)).step hg hok hs hlt

end Invariant

end PaxAdb.Sockets
