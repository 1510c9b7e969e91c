import SwarmP2p.Library.History
import SwarmP2p.Library.Transition
import SwarmP2p.Model.Identity

/-! # Crashes of a bootstrap node

The run that generates the key writes it into the final file, and makes the file private
afterwards. A run that is stopped in between leaves a file that every later run takes as it
is. -/

namespace SwarmP2p

variable {c : KeypairCodec}

structure KeypairCodec.Lawful (c : KeypairCodec) : Prop where
  encodes {k} (h : c.IsEd25519 k) : ∃ bytes, c.toProtobufEncoding k = .ok bytes
  decodes {k bytes} (h : c.toProtobufEncoding k = .ok bytes) :
    c.fromProtobufEncoding bytes = .ok k
  rejects {k bytes front} (h : c.toProtobufEncoding k = .ok bytes) (hfront : front <+: bytes)
    (hne : front ≠ bytes) : ∀ k', c.fromProtobufEncoding front ≠ .ok k'

/-! ### One run -/

/-- A file that is there is read and left alone. -/
theorem loadOrGenerateKeypair_some (generated : c.Keypair) (umask : UInt32) (file : KeyFile) :
    loadOrGenerateKeypair c generated umask (some file) =
      ⟨[some file, some file], c.fromProtobufEncoding file.contents⟩ := rfl

/-- The file while `bytes` are written to its end. -/
theorem forM_writeByte (bytes front : List UInt8) (mode : UInt32) :
    bytes.forM writeByte (some ⟨front, mode⟩) =
      ⟨(List.range bytes.length).map fun j => some ⟨front ++ bytes.take (j + 1), mode⟩,
        .ok ⟨⟩⟩ := by
  induction bytes generalizing front with
  | nil => rfl
  | cons byte bytes ih =>
      show (writeByte byte >>= fun _ => bytes.forM writeByte) _ = _
      rw [Interruptible.bind_apply (a := ⟨⟩) _ rfl]
      have hrest := ih (front ++ [byte])
      show Outcome.mk ([some ⟨front ++ [byte], mode⟩] ++
        (bytes.forM writeByte (some ⟨front ++ [byte], mode⟩)).states)
        (bytes.forM writeByte (some ⟨front ++ [byte], mode⟩)).result = _
      rw [hrest, List.length_cons, List.range_succ_eq_map, List.map_cons, List.map_map]
      simp [Function.comp_def]

/-- The file when it is created, and after each byte. -/
def written (umask : UInt32) (bytes : List UInt8) : List (Option KeyFile) :=
  (List.range (bytes.length + 1)).map fun j => some ⟨bytes.take j, createdMode umask⟩

theorem written_length (umask : UInt32) (bytes : List UInt8) :
    (written umask bytes).length = bytes.length + 1 := by
  rw [written, List.length_map, List.length_range]

theorem written_take (umask : UInt32) {bytes : List UInt8} {j : Nat} (hj : j ≤ bytes.length) :
    (written umask bytes).take (j + 1) =
      (List.range j).map (fun j => some ⟨bytes.take j, createdMode umask⟩) ++
        [some ⟨bytes.take j, createdMode umask⟩] := by
  rw [written, ← List.map_take, List.take_range, Nat.min_eq_left (Nat.succ_le_succ hj),
    List.range_succ, List.map_append, List.map_singleton]

theorem fsWrite_none (umask : UInt32) (bytes : List UInt8) :
    fsWrite umask bytes none = ⟨written umask bytes, .ok ⟨⟩⟩ := by
  show (fileCreate umask >>= fun _ => bytes.forM writeByte) none = _
  have hwritten := forM_writeByte bytes [] (createdMode umask)
  rw [Interruptible.bind_apply (a := ⟨⟩) _ rfl]
  show Outcome.mk ([some ⟨[], createdMode umask⟩] ++
    (bytes.forM writeByte (some ⟨[], createdMode umask⟩)).states)
    (bytes.forM writeByte (some ⟨[], createdMode umask⟩)).result = _
  rw [hwritten, written, List.range_succ_eq_map, List.map_cons, List.map_map]
  rfl

theorem fsWrite_final (umask : UInt32) (bytes : List UInt8) :
    (fsWrite umask bytes).final none = some ⟨bytes, createdMode umask⟩ := by
  rw [Interruptible.final, fsWrite_none, written, List.range_succ, List.map_append,
    List.map_singleton, List.getLast?_concat, List.take_length]
  rfl

/-- Without a file, it is created empty, written byte by byte, and made private. -/
theorem loadOrGenerateKeypair_none {generated : c.Keypair} {bytes : List UInt8}
    (h : c.toProtobufEncoding generated = .ok bytes) (umask : UInt32) :
    loadOrGenerateKeypair c generated umask none =
      ⟨none :: written umask bytes ++ [some ⟨bytes, 0o600⟩], .ok generated⟩ := by
  have hgenerated : (do
      let bytes ← Interruptible.lift (c.toProtobufEncoding generated)
      fsWrite umask bytes
      setPermissions 0o600
      return generated : FileM c.Keypair) none =
      ⟨written umask bytes ++ [some ⟨bytes, 0o600⟩], .ok generated⟩ := by
    rw [Interruptible.bind_apply (a := bytes) _ h]
    show (fsWrite umask bytes >>= fun _ => setPermissions 0o600 >>= fun _ => _) none = _
    rw [Interruptible.bind_apply (a := ⟨⟩) _ (by rw [fsWrite_none]), fsWrite_final, fsWrite_none]
    rfl
  rw [loadOrGenerateKeypair, Interruptible.bind_apply (a := false) _ rfl]
  exact congrArg (fun o : Outcome _ _ _ => Outcome.mk (none :: o.states) o.result) hgenerated

/-! ### Stopping points -/

namespace KeyRun

theorem code_final_some (run : KeyRun c) (file : KeyFile) :
    run.code.final (some file) = some file := rfl

theorem code_stopped_some (run : KeyRun c) (file : KeyFile) (i : Nat) :
    run.code.stopped (some file) i = some file := by
  have hstates : (run.code (some file)).states = [some file, some file] :=
    congrArg Outcome.states (loadOrGenerateKeypair_some run.generated run.umask file)
  rw [Interruptible.stopped, hstates]
  rcases i with _ | _ | i <;> simp

theorem leaves_some (run : KeyRun c) (file : KeyFile) : run.leaves (some file) = some file := by
  unfold leaves
  split
  · exact run.code_final_some file
  · exact run.code_stopped_some file _

theorem eq_of_returned?_some {run : KeyRun c} {file : KeyFile} {r : Except String c.Keypair}
    (h : run.returned? (some file) = some r) : r = c.fromProtobufEncoding file.contents := by
  unfold returned? at h
  split at h
  · exact (Option.some.inj h).symm
  · cases h

variable {run : KeyRun c} {bytes : List UInt8}

theorem code_none (h : c.toProtobufEncoding run.generated = .ok bytes) :
    run.code none =
      ⟨none :: written run.umask bytes ++ [some ⟨bytes, 0o600⟩], .ok run.generated⟩ :=
  loadOrGenerateKeypair_none h run.umask

theorem code_final_none (h : c.toProtobufEncoding run.generated = .ok bytes) :
    run.code.final none = some ⟨bytes, 0o600⟩ := by
  rw [Interruptible.final, code_none h, List.getLast?_concat]
  rfl

/-- Stopped before it creates the file. -/
theorem code_stopped_absent (h : c.toProtobufEncoding run.generated = .ok bytes) {i : Nat}
    (hi : i ≤ 1) : run.code.stopped none i = none := by
  rw [Interruptible.stopped, code_none h]
  obtain rfl | rfl : i = 0 ∨ i = 1 := by omega
  · rfl
  · rfl

/-- Stopped after `j` bytes. -/
theorem code_stopped_writing (h : c.toProtobufEncoding run.generated = .ok bytes) {j : Nat}
    (hj : j ≤ bytes.length) :
    run.code.stopped none (j + 2) = some ⟨bytes.take j, createdMode run.umask⟩ := by
  have hlength : j + 1 ≤ (written run.umask bytes).length := by
    rw [written_length]
    omega
  rw [Interruptible.stopped, code_none h, List.cons_append, List.take_succ_cons,
    List.take_append_of_le_length hlength, written_take run.umask hj, ← List.cons_append,
    List.getLast?_concat]
  rfl

/-- Stopped after its last operation. -/
theorem code_stopped_saved (h : c.toProtobufEncoding run.generated = .ok bytes) {i : Nat}
    (hi : bytes.length + 3 ≤ i) : run.code.stopped none i = some ⟨bytes, 0o600⟩ := by
  have hlength : (run.code none).states.length = bytes.length + 3 := by
    rw [code_none h, List.length_append, List.length_cons, written_length]
    rfl
  rw [Interruptible.stopped_of_le (hlength.trans_le hi), code_final_none h]

end KeyRun

/-! ### Sequences of runs -/

def KeyStep (file : Option KeyFile) (run : KeyRun c) (file' : Option KeyFile) : Prop :=
  file' = run.leaves file

/-- The first key that a run has returned. -/
def observeKey (first : Option c.Keypair)
    (x : Transition.Trans (Option KeyFile) (KeyRun c)) : Option c.Keypair :=
  first.or ((x.label.returned? x.pre).bind Except.toOption)

/-- The next run that is not interrupted returns a key, the one that was returned first, and
leaves exactly its encoding in a private file. -/
def KeepsIdentity (first : Option c.Keypair) (file : Option KeyFile) : Prop :=
  ∀ run : KeyRun c, run.interruption = none →
    ∃ k bytes, run.returned? file = some (.ok k) ∧ c.toProtobufEncoding k = .ok bytes ∧
      run.leaves file = some ⟨bytes, 0o600⟩ ∧ ∀ k₀ ∈ first, k = k₀

/-- A run that creates the file is stopped before that, or after all its operations; after
the last byte only if the umask has made the file private. -/
def KeyRun.Safe (run : KeyRun c) (file : Option KeyFile) : Prop :=
  file = none → ∀ bytes, c.toProtobufEncoding run.generated = .ok bytes →
    ∀ i ∈ run.interruption, i ≤ 1 ∨ bytes.length + 3 ≤ i ∨
      (i = bytes.length + 2 ∧ createdMode run.umask = 0o600)

theorem keepsIdentity_none (hc : c.Lawful) : KeepsIdentity (none : Option c.Keypair) none := by
  intro run hrun
  obtain ⟨bytes, hbytes⟩ := hc.encodes run.isEd25519
  refine ⟨run.generated, bytes, ?_, hbytes, ?_, by simp⟩
  · rw [KeyRun.returned?, hrun, KeyRun.code_none hbytes]
  · rw [KeyRun.leaves, hrun]
    exact KeyRun.code_final_none hbytes

theorem keepsIdentity_saved (hc : c.Lawful) {k : c.Keypair} {bytes : List UInt8}
    (h : c.toProtobufEncoding k = .ok bytes) {first : Option c.Keypair}
    (hfirst : ∀ k₀ ∈ first, k = k₀) : KeepsIdentity first (some ⟨bytes, 0o600⟩) := by
  intro run hrun
  refine ⟨k, bytes, ?_, h, run.leaves_some _, hfirst⟩
  rw [KeyRun.returned?, hrun]
  exact congrArg some (hc.decodes h)

/-- A run that leaves no file has returned nothing. -/
theorem KeyRun.returned?_of_leaves_none (hc : c.Lawful) (run : KeyRun c)
    (h : run.leaves none = none) : run.returned? none = none := by
  obtain ⟨bytes, hbytes⟩ := hc.encodes run.isEd25519
  unfold leaves at h
  split at h
  · rw [code_final_none hbytes] at h
    cases h
  · rename_i i hi
    rw [returned?, hi]

/-- Once there is a file, a run changes nothing. -/
theorem KeepsIdentity.of_some {first : Option c.Keypair} {file : KeyFile}
    (h : KeepsIdentity first (some file)) (run : KeyRun c) :
    KeepsIdentity (observeKey first ⟨some file, run, some file⟩) (some file) := by
  intro next hnext
  obtain ⟨k, bytes, hreturned, hbytes, hleaves, hfirst⟩ := h next hnext
  refine ⟨k, bytes, hreturned, hbytes, hleaves, fun k₀ hk₀ => ?_⟩
  cases first with
  | some k₁ => exact hfirst k₀ hk₀
  | none =>
      obtain ⟨r, hr, hk₀⟩ := Option.bind_eq_some_iff.mp hk₀
      have hsame : r = .ok k :=
        (KeyRun.eq_of_returned?_some hr).trans (KeyRun.eq_of_returned?_some hreturned).symm
      rw [hsame] at hk₀
      exact Option.some.inj hk₀

/-- Without a file, a run that is safe leaves none, or the whole of it. -/
theorem KeyRun.Safe.keepsIdentity (hc : c.Lawful) {run : KeyRun c} (h : run.Safe none) :
    KeepsIdentity (observeKey none ⟨none, run, run.leaves none⟩) (run.leaves none) := by
  obtain ⟨bytes, hbytes⟩ := hc.encodes run.isEd25519
  cases hi : run.interruption with
  | none =>
      have hleaves : run.leaves none = some ⟨bytes, 0o600⟩ := by
        rw [leaves, hi]
        exact code_final_none hbytes
      have hreturned : run.returned? none = some (.ok run.generated) := by
        rw [returned?, hi, code_none hbytes]
      rw [hleaves]
      refine keepsIdentity_saved hc hbytes fun k₀ hk₀ => ?_
      simp only [observeKey, hreturned] at hk₀
      exact Option.some.inj hk₀
  | some i =>
      have hleaves : run.leaves none = run.code.stopped none i := by rw [leaves, hi]
      have hfirst : observeKey none ⟨none, run, run.leaves none⟩ = none := by
        rw [observeKey, returned?, hi]
        rfl
      rw [hfirst, hleaves]
      rcases h rfl bytes hbytes i hi with habsent | hsaved | ⟨rfl, hmode⟩
      · rw [code_stopped_absent hbytes habsent]
        exact keepsIdentity_none hc
      · rw [code_stopped_saved hbytes hsaved]
        exact keepsIdentity_saved hc hbytes (by simp)
      · rw [code_stopped_writing hbytes (Nat.le_refl _), List.take_length, hmode]
        exact keepsIdentity_saved hc hbytes (by simp)

/-- Stopped anywhere else, the run leaves a file that is not complete or not private. -/
theorem KeyRun.Safe.of_keepsIdentity (hc : c.Lawful) {run : KeyRun c} {file : Option KeyFile}
    {first : Option c.Keypair} (h : KeepsIdentity first (run.leaves file)) : run.Safe file := by
  rintro rfl bytes hbytes i hi
  by_contra hunsafe
  obtain ⟨j, rfl⟩ : ∃ j, i = j + 2 := ⟨i - 2, by omega⟩
  have hj : j ≤ bytes.length := by omega
  have hleaves : run.leaves none = some ⟨bytes.take j, createdMode run.umask⟩ := by
    rw [leaves, hi]
    exact code_stopped_writing hbytes hj
  rw [hleaves] at h
  obtain ⟨k, saved, hreturned, _, hkept, _⟩ := h { run with interruption := none } rfl
  have hfile := hkept.symm.trans (leaves_some _ _)
  have hmode : createdMode run.umask = 0o600 :=
    (congrArg KeyFile.mode (Option.some.inj hfile)).symm
  have hread := eq_of_returned?_some hreturned
  refine hc.rejects hbytes (List.take_prefix j bytes) (fun hwhole => ?_) k hread.symm
  have hlength := congrArg List.length hwhole
  rw [List.length_take] at hlength
  exact hunsafe (.inr (.inr ⟨by omega, hmode⟩))

/-- However often the node is started, its key is kept whole, the same and private, exactly
as long as every run that creates the file is stopped at a safe point only. -/
theorem identity_kept_iff (hc : c.Lawful) {file : Option KeyFile}
    {π : List (Transition.Trans (Option KeyFile) (KeyRun c))}
    (h : Transition.Path KeyStep none π file) :
    (∀ x ∈ Transition.watch observeKey none π, KeepsIdentity x.post.1 x.post.2) ↔
      ∀ x ∈ Transition.watch observeKey none π, x.label.Safe x.pre.2 := by
  have hw := h.watch observeKey none
  refine hw.safe_iff_meets (I := fun a => a.2 = none → a.1 = none)
    (P := fun a => KeepsIdentity a.1 a.2) (C := fun a run => run.Safe a.2) ?_ ?_ ?_
    (fun _ => rfl) (keepsIdentity_none hc)
  · rintro ⟨first, file⟩ run ⟨first', file'⟩ hI ⟨hstep, hlog⟩ hnone
    obtain rfl : file' = run.leaves file := hstep
    obtain rfl : first' = observeKey first ⟨file, run, run.leaves file⟩ := hlog
    cases file with
    | none =>
        obtain rfl : first = none := hI rfl
        show observeKey none _ = none
        rw [observeKey, run.returned?_of_leaves_none hc hnone]
        rfl
    | some file => exact absurd ((run.leaves_some file).symm.trans hnone) (by simp)
  · rintro ⟨first, file⟩ run ⟨first', file'⟩ hI ha ⟨hstep, hlog⟩ hsafe
    obtain rfl : file' = run.leaves file := hstep
    obtain rfl : first' = observeKey first ⟨file, run, run.leaves file⟩ := hlog
    cases file with
    | none =>
        obtain rfl := hI rfl
        exact hsafe.keepsIdentity hc
    | some file =>
        dsimp only
        rw [run.leaves_some]
        exact ha.of_some run
  · rintro ⟨first, file⟩ run ⟨first', file'⟩ _ ⟨hstep, _⟩ hunsafe hkept
    obtain rfl : file' = run.leaves file := hstep
    exact hunsafe (.of_keepsIdentity hc hkept)

/-! ### A crash while the key is written -/

/-- Ed25519 keys: the key type, and the secret and the public half. -/
def ed25519 : KeypairCodec where
  Keypair := { bytes : List UInt8 // bytes.length = 64 }
  IsEd25519 _ := True
  toProtobufEncoding k := .ok ([8, 1, 18, 64] ++ k.val)
  fromProtobufEncoding
    | 8 :: 1 :: 18 :: 64 :: bytes =>
        if h : bytes.length = 64 then .ok ⟨bytes, h⟩ else .error "bad key length"
    | _ => .error "not an Ed25519 key"

theorem ed25519_lawful : ed25519.Lawful where
  encodes _ := ⟨_, rfl⟩
  decodes {k bytes} h := by
    obtain rfl := Except.ok.inj h
    exact dif_pos k.property
  rejects {k bytes front} h hfront hne := by
    obtain rfl := Except.ok.inj h
    rcases front with _ | ⟨b₁, _ | ⟨b₂, _ | ⟨b₃, _ | ⟨b₄, rest⟩⟩⟩⟩
    · exact fun _ => nofun
    · simp [ed25519]
    · simp [ed25519]
    · simp [ed25519]
    · simp only [List.cons_append, List.nil_append, List.cons_prefix_cons] at hfront
      obtain ⟨rfl, rfl, rfl, rfl, hrest⟩ := hfront
      have hlength : rest.length ≠ 64 := by
        intro hlength
        obtain rfl := hrest.eq_of_length (hlength.trans k.property.symm)
        exact hne rfl
      intro k' hk'
      exact absurd ((dif_neg hlength).symm.trans hk') nofun

/-- A secret key with its public key. -/
def keypair : ed25519.Keypair :=
  ⟨[0x9d, 0x61, 0xb1, 0x9d, 0xef, 0xfd, 0x5a, 0x60, 0xba, 0x84, 0x4a, 0xf4,
      0x92, 0xec, 0x2c, 0xc4, 0x44, 0x49, 0xc5, 0x69, 0x7b, 0x32, 0x69, 0x19,
      0x70, 0x3b, 0xac, 0x03, 0x1c, 0xae, 0x7f, 0x60, 0xd7, 0x5a, 0x98, 0x01,
      0x82, 0xb1, 0x0a, 0xb7, 0xd5, 0x4b, 0xfe, 0xd3, 0xc9, 0x64, 0x07, 0x3a,
      0x0e, 0xe1, 0x72, 0xf3, 0xda, 0xa6, 0x23, 0x25, 0xaf, 0x02, 0x1a, 0x68,
      0xf7, 0x07, 0x51, 0x1a], rfl⟩

def wholeRun : KeyRun ed25519 := ⟨keypair, trivial, 0o022, none⟩

/-- The run stops when it has written ten bytes. -/
def tornRun : KeyRun ed25519 := { wholeRun with interruption := some 12 }

/-- The run stops after the last byte, before it makes the file private. -/
def exposedRun : KeyRun ed25519 := { wholeRun with interruption := some 70 }

theorem tornRun_leaves :
    tornRun.leaves none =
      some ⟨([8, 1, 18, 64] ++ keypair.val).take 10, createdMode 0o022⟩ :=
  KeyRun.code_stopped_writing rfl (by decide)

theorem exposedRun_leaves :
    exposedRun.leaves none = some ⟨[8, 1, 18, 64] ++ keypair.val, 0o644⟩ := by
  have hbytes : ed25519.toProtobufEncoding exposedRun.generated =
      .ok ([8, 1, 18, 64] ++ keypair.val) := rfl
  exact KeyRun.code_stopped_writing hbytes (j := 68) (by decide)

/-- Every later run fails on the file that the first run leaves; the one that the second
run leaves is taken as it is, and stays readable for everybody. -/
theorem torn_key_file :
    (Transition.Path KeyStep none [⟨none, tornRun, tornRun.leaves none⟩] (tornRun.leaves none) ∧
        (¬∃ k, wholeRun.returned? (tornRun.leaves none) = some (.ok k)) ∧
        ¬KeepsIdentity (observeKey none ⟨none, tornRun, tornRun.leaves none⟩)
          (tornRun.leaves none)) ∧
      Transition.Path KeyStep none [⟨none, exposedRun, exposedRun.leaves none⟩]
          (exposedRun.leaves none) ∧
        wholeRun.returned? (exposedRun.leaves none) = some (.ok keypair) ∧
        wholeRun.leaves (exposedRun.leaves none) =
          some ⟨[8, 1, 18, 64] ++ keypair.val, 0o644⟩ ∧
        ¬KeepsIdentity (observeKey none ⟨none, exposedRun, exposedRun.leaves none⟩)
          (exposedRun.leaves none) := by
  have hfails : ¬∃ k, wholeRun.returned? (tornRun.leaves none) = some (.ok k) := by
    rw [tornRun_leaves]
    rintro ⟨k, hk⟩
    have hread := KeyRun.eq_of_returned?_some hk
    cases hread
  have hexposed : wholeRun.leaves (exposedRun.leaves none) =
      some ⟨[8, 1, 18, 64] ++ keypair.val, 0o644⟩ := by
    rw [exposedRun_leaves]
    exact wholeRun.leaves_some _
  refine ⟨⟨.single rfl, hfails, fun hkept => ?_⟩, .single rfl, ?_, hexposed, fun hkept => ?_⟩
  · obtain ⟨k, _, hreturned, _⟩ := hkept wholeRun rfl
    exact hfails ⟨k, hreturned⟩
  · rw [exposedRun_leaves]
    have hread : ed25519.fromProtobufEncoding ([8, 1, 18, 64] ++ keypair.val) = .ok keypair :=
      ed25519_lawful.decodes rfl
    exact congrArg some hread
  · obtain ⟨_, bytes, _, _, hprivate, _⟩ := hkept wholeRun rfl
    have hmode : (0o644 : UInt32) = 0o600 :=
      congrArg KeyFile.mode (Option.some.inj (hexposed.symm.trans hprivate))
    exact absurd hmode (by decide)

/-- A key that is written whole is kept. -/
theorem identity_kept_iff_whole :
    KeepsIdentity (observeKey none ⟨none, wholeRun, wholeRun.leaves none⟩)
      (wholeRun.leaves none) := by
  have hrun : Transition.Path KeyStep none
      [⟨none, wholeRun, wholeRun.leaves none⟩] (wholeRun.leaves none) := .single rfl
  refine (identity_kept_iff ed25519_lawful hrun).mpr ?_ _ (List.mem_singleton_self _)
  refine List.forall_mem_singleton.mpr fun _ _ _ i hi => ?_
  cases hi

end SwarmP2p
