import Smbpal.Samba.Serving

/-!
# `smb.conf` over Many Applies

`apply` and `teardown` may be asked for in any order, any number of times, and either may
fail wherever something is refused. Over all of that `smb.conf` is there and has one of two
texts: its own, or its own with one block put in (`HasText`). The directories that were there
are as they were.

So the condition under which one insertion is undone by one teardown
(`smb_conf_given_back`) is enough for any run of them: a teardown that returns, whatever was
done and whatever failed before it, leaves the bytes the administrator had, no `smbpal.conf`
and no record (`conf_restored`).

## Main definitions

* `HasText`: The two texts of `smb.conf`.
* `HostKept`: What stays of a host while shares come and go.
* `SambaStep`: An apply or a teardown, however it ends.

## Theorems

* `apply_kept`, `teardown_kept`: What one of them leaves.
* `conf_restored`: What any run of them leaves.
-/

namespace Smbpal

section Editing

variable {a : Applier} {f : SmbConf}

/-- The bytes of `smb.conf`: its own, or those of its text with the block put in. -/
def HasText (a : Applier) (f : SmbConf) (bytes : List UInt8) : Prop :=
  bytes = f.bytes ∨ ∃ inserted, insertInclude f.read a.includeLine = .ok inserted ∧
    inserted ≠ f.read ∧ encode inserted = some bytes

/-- What is read of them. -/
theorem HasText.read {bytes : List UInt8} {text : Str} (h : HasText a f bytes)
    (hread : readText bytes = some text) :
    bytes = f.bytes ∧ text = f.read ∨
      insertInclude f.read a.includeLine = .ok text ∧ text ≠ f.read := by
  rcases h with rfl | ⟨inserted, hinsert, hne, hbytes⟩
  · exact Or.inl ⟨rfl, Option.some.inj (hread.symm.trans f.readText_bytes)⟩
  · rcases insertInclude_plain a.smbpalConf f hinsert with ⟨-, written, hwritten, hback⟩
    have hsame : written = bytes := Option.some.inj (hwritten.symm.trans hbytes)
    rw [hsame] at hback
    have htext : text = inserted := Option.some.inj (hread.symm.trans hback)
    rw [htext]
    exact Or.inr ⟨hinsert, hne⟩

/-- Putting the block in a second time puts nothing in. -/
theorem HasText.insert {old bytes : List UInt8} {text new : Str} (h : HasText a f old)
    (hread : readText old = some text) (hedit : insertInclude text a.includeLine = .ok new)
    (hne : new ≠ text) (hbytes : encode new = some bytes) : HasText a f bytes := by
  rcases h.read hread with ⟨-, rfl⟩ | ⟨hinsert, -⟩
  · exact Or.inr ⟨new, hedit, hne, hbytes⟩
  · have hinc : hasInclude text = true := hasInclude_insertInclude hinsert
    rw [insertInclude, if_pos hinc] at hedit
    exact absurd (Except.ok.inj hedit).symm hne

/-- An `smb.conf` that one insertion and one teardown give back. -/
structure SmbConf.Returns (f : SmbConf) (a : Applier) : Prop where
  foreign : ∀ line ∈ splitlines f.read, IsForeign a.includeLine line
  back : hasInclude f.read = true ∨ chr '\r' ∉ f.text ∧ HeaderEnds f.read

/-- Taking the block out leaves the text there was, and so its bytes. -/
theorem HasText.remove {old : List UInt8} {text : Str} (h : HasText a f old)
    (hreturns : f.Returns a) (hread : readText old = some text) :
    removeInclude text a.includeLine = .ok f.read ∧ (f.read = text → old = f.bytes) ∧
      (f.read ≠ text → encode f.read = some f.bytes) := by
  rcases h.read hread with ⟨hold, rfl⟩ | ⟨hinsert, hne⟩
  · exact ⟨removeInclude_foreign hreturns.foreign, fun _ => hold, fun h => absurd rfl h⟩
  · -- the block was put in, so the marker was not there before
    have hinc : hasInclude f.read ≠ true := by
      intro hinc
      rw [insertInclude, if_pos hinc] at hinsert
      exact hne (Except.ok.inj hinsert).symm
    rcases hreturns.back.resolve_left hinc with ⟨hcr, line, hfind, hend⟩
    have hsame : f.read = f.text := (universalNewlines_eq_self_iff f.text).mpr hcr
    refine ⟨removeInclude_insertInclude a.smbpalConf hreturns.foreign hinsert hfind hend,
      fun heq => absurd heq.symm hne, fun _ => ?_⟩
    rw [hsame]
    exact encode_of_decodeUtf8 f.decodes

end Editing

section Keeping

variable {db : UserDatabase} {a : Applier} {f : SmbConf} {mode : Nat}
  {dirs : Str → Option Stat} {s s' : HostState}

/-- The permissions are those of the original, or the default. -/
def PermissionsOf (mode now : Nat) : Prop :=
  now &&& 0o777 = mode &&& 0o777 ∨ now &&& 0o777 = 0o644

theorem PermissionsOf.trans {now after : Nat} (h : PermissionsOf mode now)
    (hkept : ModeKept now after) : PermissionsOf mode after := by
  rcases hkept with hsame | rfl
  · unfold PermissionsOf
    rw [hsame]
    exact h
  · exact Or.inr rfl

/-- What stays of a host: `smb.conf` with one of its two texts, and every directory. -/
structure HostKept (a : Applier) (f : SmbConf) (mode : Nat) (dirs : Str → Option Stat)
    (s : HostState) : Prop where
  conf : ∃ file, s.files .smbConf = some file ∧ HasText a f file.bytes ∧
    PermissionsOf mode file.mode
  dirs : ∀ path info, dirs path = some info → s.dirs path = some info

theorem HostKept.grow (h : HostKept a f mode dirs s) (hgrow : DirsGrow s s') :
    HostKept a f mode dirs s' := by
  refine ⟨?_, fun path info hpath => hgrow.kept path info (h.dirs path info hpath)⟩
  rw [hgrow.files]
  exact h.conf

/-- What Samba has read and said is no file. -/
theorem HostKept.told (h : HostKept a f mode dirs s) (loaded : Option HostFiles)
    (dumped : Option (Str × HostFiles)) :
    HostKept a f mode dirs { s with loaded := loaded, dumped := dumped } :=
  ⟨h.conf, h.dirs⟩

/-- Writing another file. -/
theorem HostKept.put (h : HostKept a f mode dirs s) {other : HostFile} (hother : .smbConf ≠ other)
    (file : Option DirFile) : HostKept a f mode dirs (s.put other file) := by
  refine ⟨?_, h.dirs⟩
  rw [put_files_ne hother]
  exact h.conf

theorem HostKept.wrote (h : HostKept a f mode dirs s) {other : HostFile} (hother : .smbConf ≠ other)
    {text : Str} {m : Nat} {r : Except HostExc Unit} (hwrote : WroteFile s other text m r s') :
    HostKept a f mode dirs s' := by
  rcases hwrote with ⟨-, bytes, -, rfl⟩ | ⟨-, -, rfl⟩
  · exact h.put hother _
  · exact h

theorem HostKept.edited {bytes : List UInt8} {old : DirFile} {m : Nat}
    (h : HostKept a f mode dirs s) (hold : s.files .smbConf = some old)
    (hmode : ModeKept old.mode m)
    (hbytes : HasText a f bytes) :
    HostKept a f mode dirs (s.put .smbConf (some { bytes := bytes, mode := m })) := by
  rcases h.conf with ⟨file, hfile, -, hperm⟩
  have hsame : file = old := Option.some.inj (hfile.symm.trans hold)
  rw [hsame] at hperm
  exact ⟨⟨_, put_files s .smbConf _, hbytes, hperm.trans hmode⟩, h.dirs⟩

/-- The text of `smb.conf` is one of the two. -/
theorem HostKept.hasText (h : HostKept a f mode dirs s) {old : DirFile}
    (hold : s.files .smbConf = some old) : HasText a f old.bytes := by
  rcases h.conf with ⟨file, hfile, htext, -⟩
  have hsame : file = old := Option.some.inj (hfile.symm.trans hold)
  rw [← hsame]
  exact htext

theorem EditsConf.kept_insert {α : Type} {r : Except HostExc α}
    (h : EditsConf (insertInclude · a.includeLine) s r s') (hkept : HostKept a f mode dirs s) :
    HostKept a f mode dirs s' := by
  rcases h with ⟨rfl, -⟩ | ⟨old, text, new, bytes, m, hold, hread, hedit, hne, hbytes, hmode, rfl⟩
  · exact hkept
  · exact hkept.edited hold hmode ((hkept.hasText hold).insert hread hedit hne hbytes)

/-- The bytes of `smb.conf` are its own. -/
def OwnBytes (f : SmbConf) (s : HostState) : Prop :=
  ∃ file, s.files .smbConf = some file ∧ file.bytes = f.bytes

theorem EditsConf.kept_remove {α : Type} {r : Except HostExc α} (hreturns : f.Returns a)
    (h : EditsConf (removeInclude · a.includeLine) s r s') (hkept : HostKept a f mode dirs s) :
    HostKept a f mode dirs s' ∧ ∀ v, r = .ok v → OwnBytes f s' := by
  rcases h with ⟨rfl, hsame⟩ |
    ⟨old, text, new, bytes, m, hold, hread, hedit, hne, hbytes, hmode, rfl⟩
  · refine ⟨hkept, fun v hv => ?_⟩
    rcases hkept.conf with ⟨file, hfile, htext, -⟩
    rcases hsame v hv file hfile with ⟨text, hread, hedit⟩
    have hremove := htext.remove hreturns hread
    -- nothing was taken out, so there was nothing in it
    exact ⟨file, hfile, hremove.2.1 (Except.ok.inj (hremove.1.symm.trans hedit))⟩
  · have hremove := (hkept.hasText hold).remove hreturns hread
    have hnew : f.read = new := Except.ok.inj (hremove.1.symm.trans hedit)
    rw [← hnew] at hne hbytes
    have hown : bytes = f.bytes := Option.some.inj (hbytes.symm.trans (hremove.2.2 hne))
    exact ⟨hkept.edited hold hmode (Or.inl hown), fun _ _ => ⟨_, put_files s .smbConf _, hown⟩⟩

/-- A file that may be missing is not there after it was removed. -/
theorem unlinkMissingOk_spec (other : HostFile) :
    Lib.Program.Always (hostMachine db) (HostM.unlinkMissingOk other)
      (fun r s' => ∃ file, s' = s.put other file ∧ (r = .ok () → file = none)) s := by
  unfold HostM.unlinkMissingOk
  refine HostM.always_catching (P := fun r s' => ∃ file, s' = s.put other file ∧
    (r = .ok () → file = none) ∧
      ∀ e, r = .error e → e.isFileNotFound = true → file = none) ?_ ?_ ?_ ?_
  · -- A file that was not there is as good as one that is gone.
    rw [HostM.always_call]
    rintro ans s' ⟨file, rfl, ⟨-, hans, hnone⟩ | ⟨hsame, hfinds⟩⟩
    · exact ⟨file, rfl, fun _ => hnone, fun _ _ _ => hnone⟩
    · refine ⟨file, rfl, fun hok => ?_, fun e he hmissing => ?_⟩
      · rw [hok] at hfinds
        cases hfinds.eq
      · rw [he] at hfinds
        rw [hsame]
        exact Option.isNone_iff_eq_none.mp
          (Option.isSome_eq_false_iff.mp (hfinds.missing rfl hmissing))
  · rintro v s' ⟨file, hs', hnone, -⟩
    exact ⟨file, hs', hnone⟩
  · rintro e s' ⟨file, hs', hnone, -⟩ -
    exact ⟨file, hs', hnone⟩
  · rintro e s' ⟨file, rfl, -, hmissing⟩ hcaught
    exact ⟨file, rfl, fun _ => hmissing e rfl hcaught⟩

/-- The record is withdrawn and Samba is told, and where Samba refuses nothing is raised. -/
theorem withdrawAndReload_spec {α : Type} (adv : Advertiser) (report : α) :
    Lib.Program.Always (hostMachine db)
      (do
        let _ ← adv.withdraw
        HostM.catching HostExc.isSmbpal Control.reloadConfig fun _ => pure ()
        pure report)
      (fun r s' => ∃ record loaded, s' = { s.put .service record with loaded := loaded } ∧
        ∀ v, r = .ok v → record = none) s := by
  refine HostM.always_seq (withdraw_spec adv) ?_ ?_
  · rintro shown s₁ ⟨⟨record, rfl⟩, hrecord⟩
    have hgone := (hrecord shown rfl).2
    rw [if_neg Bool.false_ne_true, put_files] at hgone
    refine HostM.always_seq (P := fun _ s₂ => ∃ loaded,
      s₂ = { s.put .service record with loaded := loaded }) ?_ ?_ ?_
    · -- A failed reload is caught, and the record is gone either way.
      refine HostM.always_catching reload_spec ?_ ?_ ?_
      · rintro v s₂ ⟨loaded, hs₂, -⟩
        exact ⟨loaded, hs₂⟩
      · rintro e s₂ ⟨loaded, hs₂, -⟩ -
        exact ⟨loaded, hs₂⟩
      · rintro e s₂ ⟨loaded, rfl, -⟩ -
        exact ⟨loaded, rfl⟩
    · rintro _ s₂ ⟨loaded, rfl⟩
      exact ⟨record, loaded, rfl, fun _ _ => hgone⟩
    · rintro e s₂ ⟨loaded, rfl⟩
      exact ⟨record, loaded, rfl, fun _ _ => hgone⟩
  · rintro e s₁ ⟨⟨record, rfl⟩, -⟩
    exact ⟨record, _, rfl, fun _ h => by cases h⟩

/-- What a teardown that returned has left of SMBPal: nothing. -/
structure TornDown (f : SmbConf) (s : HostState) : Prop where
  conf : OwnBytes f s
  smbpalConf : s.files .smbpalConf = none
  record : s.files .service = none

/-- Wherever a teardown ends, it has kept what was there. -/
theorem teardown_kept (hreturns : f.Returns a) (hkept : HostKept a f mode dirs s) :
    Lib.Program.Always (hostMachine db) a.teardown
      (fun r s' => HostKept a f mode dirs s' ∧ ∀ report, r = .ok report → TornDown f s') s := by
  unfold Applier.teardown
  refine HostM.always_seq (stripInclude_spec a) ?_ ?_
  · rintro removed s₁ hedits
    rcases hedits.kept_remove hreturns hkept with ⟨hkept, hown⟩
    rcases hown removed rfl with ⟨own, hfile, hbytes⟩
    refine HostM.always_seq (HostM.always_call.mpr fun ans s' h => h) ?_ ?_
    · rintro there s₂ ⟨rfl, -⟩
      refine HostM.always_seq (unlinkMissingOk_spec .smbpalConf) ?_ ?_
      · rintro _ s₃ ⟨file, rfl, hnone⟩
        -- The two files and the record differ, so what each step leaves alone stays.
        have hother : HostFile.smbConf ≠ .smbpalConf := by decide
        have hkept := hkept.put hother file
        refine Lib.Program.always_mono (withdrawAndReload_spec a.advertiser _) ?_
        rintro r s₄ ⟨record, loaded, rfl, hrecord⟩
        have hconf : HostFile.smbConf ≠ .service := by decide
        have hsmbpal : HostFile.smbpalConf ≠ .service := by decide
        have hkept := hkept.put hconf record
        refine ⟨hkept.told loaded _, fun report hr => ⟨⟨own, ?_, hbytes⟩, ?_, ?_⟩⟩
        · exact (put_files_ne hconf _ record).trans ((put_files_ne hother s₂ file).trans hfile)
        · exact (put_files_ne hsmbpal _ record).trans
            ((put_files s₂ .smbpalConf file).trans (hnone rfl))
        · exact (put_files (s₂.put .smbpalConf file) .service record).trans (hrecord report hr)
      · rintro e s₃ ⟨file, rfl, -⟩
        exact ⟨hkept.put (by decide) file, fun _ h => by cases h⟩
    · rintro e s₂ ⟨rfl, -⟩
      exact ⟨hkept, fun _ h => by cases h⟩
  · intro e s₁ hedits
    exact ⟨(hedits.kept_remove hreturns hkept).1, fun _ h => by cases h⟩

variable [Unicode]

/-- Wherever an apply ends, it has kept what was there. -/
theorem apply_kept (doc : Config) (hkept : HostKept a f mode dirs s) :
    Lib.Program.Always (hostMachine db) (a.apply doc)
      (fun _ s' => HostKept a f mode dirs s') s := by
  unfold Applier.apply
  refine HostM.always_seq (plan_looks doc.shares s rfl) ?_ (fun e s' h => h.1 ▸ hkept)
  rintro before s' ⟨rfl, -⟩
  refine HostM.always_seq (createMissingDirectories_spec before) ?_
    (fun e s' h => hkept.grow h.1)
  rintro _ s₁ ⟨hgrow, -⟩
  have hkept := hkept.grow hgrow
  refine HostM.always_seq (plan_looks doc.shares s₁ rfl) ?_ (fun e s' h => h.1 ▸ hkept)
  rintro planned s₂ ⟨rfl, -⟩
  refine HostM.always_seq (check_looks (renderPlanned planned) s₂ rfl) ?_
    (fun e s' h => h.1 ▸ hkept)
  rintro rendered s₃ ⟨rfl, -⟩
  refine HostM.always_seq always_writeOr ?_ (fun e s' h => hkept.wrote (by decide) h)
  rintro _ s₄ hwrote
  have hkept := hkept.wrote (by decide) hwrote
  refine HostM.always_seq (ensureInclude_spec a) ?_ (fun e s' h => h.1.kept_insert hkept)
  rintro _ s₅ ⟨hedits, -⟩
  have hkept := hedits.kept_insert hkept
  -- from here on only what Samba has read and said, and the record
  refine HostM.always_seq reload_spec ?_ ?_
  · rintro _ s₆ ⟨loaded, rfl, -⟩
    refine HostM.always_seq (verify_spec _) ?_ ?_
    · rintro _ s₇ ⟨dumped, rfl, -⟩
      refine HostM.always_seq (reconcile_spec _ _) ?_ ?_
      · rintro advertising s₈ ⟨⟨file, rfl⟩, -⟩
        exact (hkept.told loaded dumped).put (by decide : HostFile.smbConf ≠ .service) file
      · rintro e s₈ ⟨⟨file, rfl⟩, -⟩
        exact (hkept.told loaded dumped).put (by decide : HostFile.smbConf ≠ .service) file
    · rintro e s₇ ⟨dumped, rfl, -⟩
      exact hkept.told loaded dumped
  · rintro e s₆ ⟨loaded, rfl, -⟩
    exact hkept.told loaded _

end Keeping

section Running

variable [Unicode] {a : Applier} {f : SmbConf} {mode : Nat} {s s' s₁ : HostState}

/-- An apply or a teardown, whoever the users are by then, and however it ends. -/
inductive SambaStep (a : Applier) (s s' : HostState) : Prop
  | apply (db : UserDatabase) (doc : Config) (r : Except HostExc ApplyReport)
      (h : Lib.Program.Exec (hostMachine db) (a.apply doc) s r s') : SambaStep a s s'
  | teardown (db : UserDatabase) (r : Except HostExc TeardownReport)
      (h : Lib.Program.Exec (hostMachine db) a.teardown s r s') : SambaStep a s s'

theorem SambaStep.kept {dirs : Str → Option Stat} (hreturns : f.Returns a)
    (h : SambaStep a s s') (hkept : HostKept a f mode dirs s) : HostKept a f mode dirs s' := by
  cases h with
  | apply db doc r h => exact Lib.Program.always_exec (apply_kept doc hkept) h
  | teardown db r h => exact (Lib.Program.always_exec (teardown_kept hreturns hkept) h).1

/-- Whatever was applied and torn down, and whatever of it failed, `smb.conf` has its own text
    or that with the block, the directories are as they were, and a teardown that returns
    leaves the bytes there were. -/
theorem conf_restored (hreturns : f.Returns a)
    (hconf : s.files .smbConf = some { bytes := f.bytes, mode := mode })
    (hrun : Relation.ReflTransGen (SambaStep a) s s₁) :
    HostKept a f mode s.dirs s₁ ∧ ∀ db report s₂,
      Lib.Program.Exec (hostMachine db) a.teardown s₁ (.ok report) s₂ →
        HostKept a f mode s.dirs s₂ ∧ TornDown f s₂ := by
  have hkept : HostKept a f mode s.dirs s₁ := by
    induction hrun with
    | refl => exact ⟨⟨_, hconf, Or.inl rfl, Or.inl rfl⟩, fun _ _ h => h⟩
    | tail _ hstep ih => exact hstep.kept hreturns ih
  refine ⟨hkept, fun db report s₂ hx => ?_⟩
  rcases Lib.Program.always_exec (teardown_kept hreturns hkept) hx with ⟨hkept, hrestored⟩
  exact ⟨hkept, hrestored report rfl⟩

end Running

section Films

attribute [local instance] Unicode.ascii

set_option maxRecDepth 10000 in
theorem stockConf_returns : stockConf.Returns filmsApplier := by
  refine ⟨?_, Or.inr ⟨?_, str "[global]\n", ?_, ?_⟩⟩
  all_goals decide +kernel

set_option maxRecDepth 10000 in
/-- The teardown after it returns. -/
theorem films_removed : (filmsApplier.teardown.run (obligingHost filmsUsers filmsDump)
    filmsServed).1.isOk = true := by
  decide +kernel

/-- Her folder was shared, and then SMBPal was removed. -/
theorem conf_restored_films : ∃ s₂ : HostState,
    HostKept filmsApplier stockConf 0o644 filmsHost.dirs s₂ ∧ TornDown stockConf s₂ := by
  rcases exec_films_applied with ⟨report, hx⟩
  rcases exec_films (hostMachine_obliging filmsUsers filmsDump) films_removed rfl with
    ⟨removed, hremoved⟩
  have hrestored := conf_restored stockConf_returns rfl
    (Relation.ReflTransGen.single
      (SambaStep.apply filmsUsers (sharing "/srv/films") (.ok report) hx))
  exact ⟨_, hrestored.2 filmsUsers removed _ hremoved⟩

end Films

end Smbpal
