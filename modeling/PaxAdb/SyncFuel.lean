import PaxAdb.SyncPull

/-!
# The loops of the sync client end

Every round of a loop of the client reads a message of some bytes, and so does every level of the
recursion over directories. What may take more rounds than bytes still arrive never uses them up.
-/

namespace PaxAdb.Sync

open Proc

def Client.pending (c : Client) : ℕ := (arrived c.arrivals).length

/-- While fewer than `n` bytes still arrive, `x` does not use up its rounds, and when it gets to its
end it has read at least `k` of them. -/
def Uses (n k : ℕ) {α : Type} (x : Call α) : Prop :=
  ∀ c, c.pending < n → (∃ code c', x c = (.error (.ret code), c')) ∨
    ∃ a c', x c = (.ok a, c') ∧ c'.pending + k ≤ c.pending

namespace Uses

variable {α β : Type} {k l n : ℕ} {x y : Call α} {f : α → Call β} {p : Prop} [Decidable p]

theorem mono (hx : Uses n k x) {n' k' : ℕ} (hn : n' ≤ n) (hk : k' ≤ k) : Uses n' k' x :=
  fun c hc => (hx c (hc.trans_le hn)).imp_right fun ⟨a, c', hxc, hle⟩ => ⟨a, c', hxc, by omega⟩

theorem ret (code : ℤ) : Uses n k (exit (.ret code) : Call α) := fun c _ => .inl ⟨code, c, rfl⟩

/-- A call that leaves the connection alone. -/
theorem of_arrivals (hx : ∀ c, (x c).2.arrivals = c.arrivals)
    (hexit : Proc.Exits (· ≠ .exhausted) x) : Uses n 0 x := by
  intro c _
  rcases hxc : x c with ⟨(code | _) | a, c'⟩
  · exact .inl ⟨code, c', rfl⟩
  · exact absurd rfl (hexit c _ c' hxc)
  · have harr := hx c
    rw [hxc] at harr
    exact .inr ⟨a, c', rfl, (congrArg (fun reads => (arrived reads).length) harr).le⟩

theorem lasts (hx : Uses n k x) {c : Client} (hc : c.pending < n) :
    (x c).1 ≠ .error .exhausted := by
  rcases hx c hc with ⟨code, c', hxc⟩ | ⟨a, c', hxc, -⟩ <;> simp [hxc]

theorem pure (a : α) : Uses n 0 (pure a : Call α) := of_arrivals (fun _ => rfl) (.pure a)

theorem bind (hx : Uses n k x) (hf : ∀ a, Uses (n - k) l (f a)) : Uses n (k + l) (x >>= f) := by
  intro c hc
  rcases hx c hc with ⟨code, c', hxc⟩ | ⟨a, c', hxc, hk⟩
  · exact .inl ⟨code, c', bind_of_error f hxc⟩
  · rw [bind_of_ok f hxc]
    exact (hf a c' (by omega)).imp_right fun ⟨b, c'', hfc, hl⟩ => ⟨b, c'', hfc, by omega⟩

/-- The bytes that are read do not matter. -/
theorem seq (hx : Uses n k x) (hf : ∀ a, Uses (n - k) 0 (f a)) : Uses n 0 (x >>= f) :=
  (hx.bind hf).mono le_rfl (Nat.zero_le _)

theorem ite (hx : Uses n k x) (hy : Uses n k y) : Uses n k (if p then x else y) := by
  by_cases hp : p
  · rw [if_pos hp]
    exact hx
  · rw [if_neg hp]
    exact hy

theorem orReturn1 (hx : Uses n k x) : Uses n k (orReturn1 x) := by
  intro c hc
  rcases hx c hc with ⟨code, c', hxc⟩ | ⟨a, c', hxc, hk⟩
  · exact .inl ⟨1, c', exitAs_of_error _ hxc⟩
  · exact .inr ⟨a, c', exitAs_of_ok _ hxc, hk⟩

/-- A loop that is bounded by the bytes that arrive. -/
theorem fueled {x : ℕ → Call α} (h : ∀ n, Uses n k (x n)) :
    Uses n k (state >>= fun c => x c.fuel) :=
  fun c _ => h c.fuel c (Nat.lt_succ_self _)

end Uses

section Reads

variable {n : ℕ}

theorem readx_uses (room : ℕ) (len : ℤ) : Uses n (toSize len) (readx room len) := by
  intro c _
  rw [readx]
  split
  · split
    next bytes rest hread =>
      obtain ⟨hlen, happ⟩ := readx_some _ _ hread
      refine .inr ⟨bytes, _, rfl, ?_⟩
      change (arrived rest).length + _ ≤ (arrived c.arrivals).length
      rw [happ, List.length_append, hlen, add_comm]
    next => exact .inl ⟨-1, _, rfl⟩
  · exact .inl ⟨-1, _, rfl⟩

theorem readMsg_uses (m : ℕ) (hm : 4 * m < 2 ^ 64) : Uses n (4 * m) (readMsg m) := by
  have hread : Uses n _ (readx (4 * m) (4 * m : ℕ)) := readx_uses _ _
  rw [toSize_natCast hm, Nat.cast_mul, Nat.cast_ofNat] at hread
  exact hread.bind fun _ => .pure _

theorem lengthField_uses (field : UInt32) : Uses n 0 (lengthField field) :=
  .of_arrivals (fun _ => rfl) fun _ _ _ h => nomatch h

theorem request_uses (id : UInt32) (path : Path) : Uses n 0 (request id path) := by
  have hwritex (bytes : List Byte) : Uses n 0 (writex bytes) :=
    .seq (.of_arrivals (fun _ => rfl) fun _ _ _ h => nomatch h) fun _ => .ite (.pure ()) (.ret _)
  exact .seq (hwritex _) fun _ => hwritex path

theorem remoteError_uses (lpath : Path) (id size : UInt32) : Uses n 0 (remoteError lpath id size) :=
  .seq (.of_arrivals (fun c => (adbUnlink_path lpath c).arrivals) ((adbUnlink_total lpath).exits _))
    fun _ => .ite (.seq (lengthField_uses size) fun _ => .seq (readx_uses _ _) fun _ => .pure ())
      (.pure ())

theorem writeLocal_uses (path : Path) (bytes : List Byte) : Uses n 0 (writeLocal path bytes) := by
  refine .of_arrivals (fun c => (writeLocal_local path bytes c).arrivals) fun c e c' h => ?_
  obtain ⟨c'', happly, -⟩ := writeLocal_apply path bytes c
  rw [happly] at h
  split at h <;> cases h
  exact nofun

end Reads

section Loops

variable {β : Type} {n : ℕ}

theorem recvLoop_uses (lpath : Path) (n : ℕ) (id size : UInt32) :
    Uses n 0 (recvLoop lpath n id size) := by
  induction n generalizing id size with
  | zero => exact fun c hc => absurd hc (Nat.not_lt_zero _)
  | succ n ih =>
    refine .ite (.pure _) (.ite (remoteError_uses lpath id size) ?_)
    refine .seq (lengthField_uses size) fun len => .ite (.ret _) ?_
    refine .seq (readx_uses _ _) fun bytes => .seq (writeLocal_uses lpath bytes) fun _ => ?_
    refine .seq (readMsg_uses 2 (by decide)) fun msg => ?_
    split
    · exact (ih _ _).mono (by omega) le_rfl
    · exact .ret _

theorem syncLsLoop_uses (func : β → Entry → β) (n : ℕ) (cookie : β) :
    Uses n 20 (syncLsLoop func n cookie) := by
  induction n generalizing cookie with
  | zero => exact fun c hc => absurd hc (Nat.not_lt_zero _)
  | succ n ih =>
    refine .bind (l := 0) (readMsg_uses 5 (by decide)) fun msg => ?_
    split
    · refine .ite (.pure _) (.ite (.ret _) (.seq (lengthField_uses _) fun len => .ite (.ret _) ?_))
      exact .seq (readx_uses _ _) fun buf => (ih _).mono (by omega) (Nat.zero_le _)
    · exact .ret _

theorem syncLs_uses (path : Path) (func : β → Entry → β) (cookie : β) :
    Uses n 20 (syncLs path func cookie) :=
  .ite (.ret _) (.bind (k := 0) (request_uses _ _)
    fun _ => .fueled fun m => syncLsLoop_uses func m cookie)

theorem buildDirs_uses {build : CopyInfo → List CopyInfo → Call (List CopyInfo)}
    (h : ∀ dir filelist, Uses n 0 (build dir filelist)) (dirlist filelist : List CopyInfo) :
    Uses n 0 (buildDirs build dirlist filelist) := by
  induction dirlist generalizing filelist with
  | nil => exact .pure _
  | cons dir dirlist ih => exact .seq (h dir filelist) fun list => ih list

theorem remoteBuildList_uses (n : ℕ) (rpath lpath : Path) (filelist : List CopyInfo) :
    Uses n 0 (remoteBuildList n rpath lpath filelist) := by
  induction n generalizing rpath lpath filelist with
  | zero => exact fun c hc => absurd hc (Nat.not_lt_zero _)
  | succ n ih =>
    refine .seq (.orReturn1 (syncLs_uses rpath _ _)) fun args => ?_
    exact (buildDirs_uses (fun dir filelist => ih dir.src dir.dst filelist) _ _).mono (by omega)
      le_rfl

end Loops

/-- A device cannot keep the client busy for ever: no loop takes more rounds and no recursion goes
deeper than there are bytes that still arrive. -/
theorem sync_loops_end {β : Type} {c : Client} {n : ℕ} (hn : c.pending < n) :
    (∀ lpath id size, (recvLoop lpath n id size c).1 ≠ .error .exhausted) ∧
    (∀ (func : β → Entry → β) cookie, (syncLsLoop func n cookie c).1 ≠ .error .exhausted) ∧
    ∀ rpath lpath filelist, (remoteBuildList n rpath lpath filelist c).1 ≠ .error .exhausted :=
  ⟨fun lpath id size => (recvLoop_uses lpath n id size).lasts hn,
    fun func cookie => (syncLsLoop_uses func n cookie).lasts hn,
    fun rpath lpath filelist => (remoteBuildList_uses n rpath lpath filelist).lasts hn⟩

/-- A directory with a directory in it that has a file: 88 bytes arrive. -/
theorem sync_loops_end_tree : let c := Client.hearing [ID_DENT, 0x41ed, 0, 0, 4,
      MKID 's' 'u' 'b' '1', ID_DONE, 0, 0, 0, 0, ID_DENT, 0x81a4, 1, 0, 4, MKID 'f' 'i' 'l' 'e',
      ID_DONE, 0, 0, 0, 0]
    c.pending = 88 ∧
    (remoteBuildList 89 (text "/d/") (text "d/") [] c).1 ≠ .error .exhausted ∧
    (remoteBuildList 89 (text "/d/") (text "d/") [] c).1.toOption.map (·.map (·.dst)) =
      some [text "d/sub1/file"] := by
  intro c
  have hpending : c.pending = 88 := by decide +kernel
  refine ⟨hpending, ?_, by decide +kernel⟩
  exact (sync_loops_end (β := Unit) (by rw [hpending]; decide)).2.2 _ _ _

end PaxAdb.Sync
