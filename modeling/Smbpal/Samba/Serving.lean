import Smbpal.Samba.Placed
import Smbpal.Samba.Planning

/-!
# What an Apply Leaves Served

`apply_serves`: when `apply` returns, the shares of its report are the plan for the
directories as they are, `smbpal.conf` holds what is rendered of that plan, `smb.conf` has
the block, Samba has read both since they were last written and names every enabled share in
what `testparm` prints of them, and the mDNS record is there exactly when a share is enabled.

Whatever an apply or a teardown does to `smb.conf` it does in one write, of the text with the
block put in or taken out (`EditsConf`), and the mode stays what it was, or is `0o644` where
it could not be told.

## Main definitions

* `EditsConf`: What an edit of `smb.conf` leaves.
* `Serving`: What an apply that returned has made of the host.

## Theorems

* `ensureInclude_spec`, `stripInclude_spec`: The two edits.
* `reload_spec`, `verify_spec`, `reconcile_spec`: What the other parts leave.
* `apply_serves`: What an apply that returns has made of the host.
* `apply_again`: The next one changes nothing.
-/

namespace Smbpal

section Writing

variable {db : UserDatabase} {s : HostState}

/-- A write is whole, or nothing has changed. -/
def WroteFile (s : HostState) (f : HostFile) (text : Str) (mode : Nat) (r : Except HostExc Unit)
    (s' : HostState) : Prop :=
  (r = .ok () ∧ ∃ bytes, encode text = some bytes ∧
      s' = s.put f (some { bytes := bytes, mode := mode })) ∨
    ∃ e, r = .error e ∧ s' = s

theorem always_write (f : HostFile) (text : Str) (mode : Nat) :
    Lib.Program.Always (hostMachine db) (HostM.call (.writeText f text mode))
      (WroteFile s f text mode) s := by
  rw [HostM.always_call]
  rintro ans s' ⟨file, rfl, hwritten⟩
  cases ans with
  | ok value =>
      rcases hwritten.ok with ⟨bytes, hbytes, rfl⟩
      exact Or.inl ⟨rfl, bytes, hbytes, rfl⟩
  | error e =>
      rw [hwritten.error, put_self]
      exact Or.inr ⟨e, rfl, rfl⟩

/-- The state that an error leaves behind. -/
theorem WroteFile.error {f : HostFile} {text : Str} {mode : Nat} {e : HostExc} {s' : HostState}
    (h : WroteFile s f text mode (.error e) s') : s' = s := by
  rcases h with ⟨hok, -⟩ | ⟨-, -, hs'⟩
  · cases hok
  · exact hs'

/-- `except OSError` around a write, where another error is raised. -/
theorem always_writeOr {f : HostFile} {text : Str} {mode : Nat} {raises : HostExc → HostExc} :
    Lib.Program.Always (hostMachine db)
      (HostM.catching HostExc.isOS (HostM.call (.writeText f text mode)) fun e =>
        throw (raises e)) (WroteFile s f text mode) s :=
  HostM.always_catching (always_write f text mode) (fun _ _ h => h) (fun _ _ h _ => h)
    fun e _ h _ => Or.inr ⟨raises e, rfl, h.error⟩

/-- The permissions are those there were, or the default. -/
def ModeKept (before after : Nat) : Prop :=
  after &&& 0o777 = before &&& 0o777 ∨ after = 0o644

/-- The mode is that of the file, or the default. -/
theorem modeOf_looks (f : HostFile) : Looks db s (HostM.modeOf f) fun mode =>
    ∀ file, s.files f = some file → ModeKept file.mode mode := by
  refine looks_catching ?_ fun e _ => Lib.Program.yields_pure fun _ _ => Or.inr rfl
  intro s₁ hs₁
  rw [hs₁, HostM.always_map, HostM.always_call]
  rintro ans s' ⟨rfl, hans⟩
  refine ⟨rfl, fun mode hmode file hfile => ?_⟩
  cases ans with
  | error e => cases hmode
  | ok found =>
      have hfound := hans.eq
      rw [hfile, Option.map_some, Option.some.injEq] at hfound
      have hmasked : found &&& 0o777 = mode := Except.ok.inj hmode
      rw [← hmasked, ← hfound]
      exact Or.inl (by rw [Nat.and_assoc, Nat.and_self])

/-- The text is in the file, with the mode that one had, or nothing has changed. -/
def Rewrote {α : Type} (s : HostState) (f : HostFile) (old : DirFile) (text : Str)
    (r : Except HostExc α) (s' : HostState) : Prop :=
  (∃ bytes mode, encode text = some bytes ∧ ModeKept old.mode mode ∧
      s' = s.put f (some { bytes := bytes, mode := mode })) ∨
    ∃ e, r = .error e ∧ s' = s

/-- The text is written with the mode the file has. -/
theorem rewrite_spec (a : Applier) {f : HostFile} {old : DirFile} (hold : s.files f = some old)
    (text : Str) : Lib.Program.Always (hostMachine db)
      (do
        let mode ← HostM.modeOf f
        a.write f text mode) (Rewrote s f old text) s := by
  refine HostM.always_seq (modeOf_looks f s rfl) ?_ ?_
  · rintro mode s' ⟨rfl, hmode⟩
    refine Lib.Program.always_mono always_writeOr fun r s₁ h => ?_
    rcases h with ⟨-, bytes, hbytes, hs₁⟩ | herror
    · exact Or.inl ⟨bytes, mode, hbytes, hmode mode rfl old hold, hs₁⟩
    · exact Or.inr herror
  · rintro e s' ⟨rfl, -⟩
    exact Or.inr ⟨e, rfl, rfl⟩

end Writing

section Editing

variable {db : UserDatabase} {s : HostState}

/-- Nothing was written, and if it returned nothing had to be; or what the edit makes of the
    text is in the file, with the mode it had. -/
def EditsConf {α : Type} (edit : Str → Except Exc Str) (s : HostState) (r : Except HostExc α)
    (s' : HostState) : Prop :=
  (s' = s ∧ ∀ v, r = .ok v → ∀ file, s.files .smbConf = some file →
      ∃ text, readText file.bytes = some text ∧ edit text = .ok text) ∨
    ∃ old text new bytes mode, s.files .smbConf = some old ∧ readText old.bytes = some text ∧
      edit text = .ok new ∧ new ≠ text ∧ encode new = some bytes ∧ ModeKept old.mode mode ∧
      s' = s.put .smbConf (some { bytes := bytes, mode := mode })

theorem EditsConf.raised {α : Type} {edit : Str → Except Exc Str} (e : HostExc) :
    EditsConf edit s (.error e : Except HostExc α) s :=
  Or.inl ⟨rfl, fun v hv => by cases hv⟩

/-- What was read is what the file says. -/
def ReadConf (s : HostState) (text : Str) : Prop :=
  ∃ file, s.files .smbConf = some file ∧ readText file.bytes = some text

theorem Finds.readConf {text : Str}
    (h : Finds ((s.files .smbConf).bind fun file => readText file.bytes)
      (s.files .smbConf).isSome (.ok text)) : ReadConf s text := by
  rcases Option.bind_eq_some_iff.mp h.eq with ⟨file, hfile, hread⟩
  exact ⟨file, hfile, hread⟩

/-- A text transform changes nothing. -/
theorem check_looks {α : Type} (r : Except Exc α) :
    Looks db s (HostM.check r) fun v => r = .ok v := by
  refine Lib.Program.yields_fromExcept fun v hv => ?_
  cases r with
  | ok value => rw [Except.ok.inj hv]
  | error e => cases hv

/-- The text is edited, and written where that changed it. -/
theorem edit_spec {α : Type} {text : Str} (hread : ReadConf s text)
    (edit : Str → Except Exc Str) (same : α) {finish : Str → HostM α}
    (hfinish : ∀ old new, s.files .smbConf = some old →
      Lib.Program.Always (hostMachine db) (finish new) (Rewrote s .smbConf old new) s) :
    Lib.Program.Always (hostMachine db)
      (do
        let new ← HostM.check (edit text)
        if new = text then pure same else finish new) (EditsConf edit s) s := by
  rcases hread with ⟨old, hold, hread⟩
  refine HostM.always_seq (check_looks (edit text) s rfl) ?_ ?_
  · rintro new s' ⟨rfl, hnew⟩
    have hedit := hnew new rfl
    -- An edit that changes nothing writes nothing.
    by_cases hsame : new = text
    · rw [if_pos hsame]
      refine Or.inl ⟨rfl, fun _ _ file hfile => ⟨text, ?_, hsame ▸ hedit⟩⟩
      rw [← Option.some.inj (hold.symm.trans hfile)]
      exact hread
    · rw [if_neg hsame]
      refine Lib.Program.always_mono (hfinish old new hold) fun r s₁ h => ?_
      rcases h with ⟨bytes, mode, hbytes, hmode, hs₁⟩ | ⟨e, rfl, rfl⟩
      · exact Or.inr ⟨old, text, new, bytes, mode, hold, hread, hedit, hsame, hbytes, hmode, hs₁⟩
      · exact EditsConf.raised e
  · rintro e s' ⟨rfl, -⟩
    exact EditsConf.raised e

/-- Putting the block in, which takes a file to put it in. -/
theorem ensureInclude_spec (a : Applier) :
    Lib.Program.Always (hostMachine db) a.ensureInclude
      (fun r s' => EditsConf (insertInclude · a.includeLine) s r s' ∧
        (r = .ok () → s.files .smbConf ≠ none)) s := by
  unfold Applier.ensureInclude
  refine HostM.always_seq (P := fun r s' => s' = s ∧ ∀ text, r = .ok text → ReadConf s text)
    ?_ ?_ ?_
  · refine HostM.always_catching
      (P := fun r s' => s' = s ∧ ∀ text, r = .ok text → ReadConf s text) ?_
      (fun _ _ h => h) (fun _ _ h _ => h) ?_
    · rw [HostM.always_call]
      rintro ans s' ⟨rfl, hans⟩
      refine ⟨rfl, fun text htext => ?_⟩
      rw [htext] at hans
      exact hans.readConf
    · rintro e s' ⟨rfl, -⟩ -
      -- Either way the source raises an error of its own.
      by_cases hmissing : e.isFileNotFound = true
      · rw [if_pos hmissing]
        exact ⟨rfl, fun text htext => by cases htext⟩
      · rw [if_neg hmissing]
        exact ⟨rfl, fun text htext => by cases htext⟩
  · rintro text s' ⟨rfl, htext⟩
    have hread := htext text rfl
    rcases hread with ⟨file, hfile, -⟩
    refine Lib.Program.always_mono (edit_spec (htext text rfl) (insertInclude · a.includeLine) ()
      fun old new hold => rewrite_spec a hold new) fun r s₁ h => ⟨h, fun _ => ?_⟩
    rw [hfile]
    exact Option.some_ne_none file
  · rintro e s' ⟨rfl, -⟩
    exact ⟨EditsConf.raised e, fun h => by cases h⟩

/-- Taking the block out. -/
theorem stripInclude_spec (a : Applier) :
    Lib.Program.Always (hostMachine db) a.stripInclude
      (EditsConf (removeInclude · a.includeLine) s) s := by
  unfold Applier.stripInclude
  refine HostM.always_seq (P := fun r s' => s' = s ∧ ∀ found, r = .ok found →
    found.elim (s.files .smbConf = none) (ReadConf s)) ?_ ?_ ?_
  · refine HostM.always_catching (P := fun r s' => s' = s ∧ (∀ found, r = .ok found →
      found.elim (s.files .smbConf = none) (ReadConf s)) ∧
        ∀ e, r = .error e → e.isFileNotFound = true → s.files .smbConf = none) ?_ ?_ ?_ ?_
    · -- A missing file is caught and read as nothing to remove.
      rw [HostM.always_map, HostM.always_call]
      rintro ans s' ⟨rfl, hans⟩
      refine ⟨rfl, fun found hfound => ?_, fun e he hmissing => ?_⟩
      · cases ans with
        | error e => cases hfound
        | ok text =>
            rw [← Except.ok.inj hfound]
            exact hans.readConf
      · cases ans with
        | ok text => cases he
        | error raised =>
            have hraised : raised = e := Except.error.inj he
            rw [← hraised] at hmissing
            exact Option.isNone_iff_eq_none.mp (Option.isSome_eq_false_iff.mp
              (hans.missing rfl hmissing))
    · exact fun v s' h => ⟨h.1, h.2.1⟩
    · exact fun e s' h _ => ⟨h.1, h.2.1⟩
    · rintro e s' ⟨rfl, -, hmissing⟩ hcaught
      refine ⟨rfl, fun found hfound => ?_⟩
      rw [← Except.ok.inj hfound]
      exact hmissing e rfl hcaught
  · rintro found s' ⟨rfl, hfound⟩
    cases found with
    | none =>
        have hnone : s'.files .smbConf = none := hfound none rfl
        refine Or.inl ⟨rfl, fun _ _ file hfile => ?_⟩
        rw [hnone] at hfile
        cases hfile
    | some text =>
        -- The mode is asked for before the text is written back.
        refine edit_spec (hfound (some text) rfl) (removeInclude · a.includeLine) false ?_
        intro old new hold
        refine HostM.always_seq (modeOf_looks .smbConf s' rfl) ?_ ?_
        · rintro mode s₁ ⟨rfl, hmode⟩
          refine HostM.always_seq always_writeOr ?_ ?_
          · rintro v s₂ (⟨-, bytes, hbytes, hs₂⟩ | ⟨e, he, -⟩)
            · exact Or.inl ⟨bytes, mode, hbytes, hmode mode rfl old hold, hs₂⟩
            · cases he
          · exact fun e s₂ h => Or.inr ⟨e, rfl, h.error⟩
        · rintro e s₁ ⟨rfl, -⟩
          exact Or.inr ⟨e, rfl, rfl⟩
  · rintro e s' ⟨rfl, -⟩
    exact EditsConf.raised e

end Editing

section Record

variable {db : UserDatabase} {s : HostState}

/-- The mDNS record says what it is to say. -/
def Published (s : HostState) : Prop :=
  ∃ file, s.files .service = some file ∧ readText file.bytes = some serviceXml

theorem current_looks : Looks db s Advertiser.current fun current =>
    current = some serviceXml → Published s := by
  refine looks_catching ?_ fun e _ => Lib.Program.yields_pure fun h => by cases h
  intro s₁ hs₁
  rw [hs₁, HostM.always_map, HostM.always_call]
  rintro ans s' ⟨rfl, hans⟩
  refine ⟨rfl, fun current hcurrent hsame => ?_⟩
  cases ans with
  | error e => cases hcurrent
  | ok text =>
      have htext : some text = some serviceXml := (Except.ok.inj hcurrent).trans hsame
      rcases Option.bind_eq_some_iff.mp hans.eq with ⟨file, hfile, hread⟩
      exact ⟨file, hfile, hread.trans htext⟩

theorem isCurrent_looks : Looks db s Advertiser.isCurrent fun same =>
    same = true → Published s := by
  unfold Advertiser.isCurrent
  refine Lib.Program.yields_bind (R := fun _ => True) (looks_host fun ans s' h =>
    ⟨h.1, fun _ _ => trivial⟩) fun there _ => ?_
  by_cases hthere : there = true
  · rw [if_pos hthere]
    refine Lib.Program.yields_bind current_looks fun current hcurrent => ?_
    exact Lib.Program.yields_pure fun h => hcurrent (of_decide_eq_true h)
  · rw [if_neg hthere]
    exact Lib.Program.yields_pure fun h => absurd h Bool.false_ne_true

/-- What becomes of the record. -/
def RecordLeft (s : HostState) (shown : Bool) (r : Except HostExc Bool) (s' : HostState) : Prop :=
  (∃ file, s' = s.put .service file) ∧ ∀ v, r = .ok v → v = shown ∧
    (if shown = true then Published s' else s'.files .service = none)

theorem RecordLeft.raised {shown : Bool} (e : HostExc) : RecordLeft s shown (.error e) s :=
  ⟨⟨_, (put_self s .service).symm⟩, fun v hv => by cases hv⟩

theorem publish_spec (adv : Advertiser) :
    Lib.Program.Always (hostMachine db) adv.publish (RecordLeft s true) s := by
  unfold Advertiser.publish
  refine HostM.always_seq (isCurrent_looks s rfl) ?_ ?_
  · rintro same s' ⟨rfl, hsame⟩
    by_cases hcurrent : same = true
    · rw [if_pos hcurrent]
      refine ⟨⟨_, (put_self s' .service).symm⟩, fun v hv => ⟨(Except.ok.inj hv).symm, ?_⟩⟩
      rw [if_pos rfl]
      exact hsame same rfl hcurrent
    · rw [if_neg hcurrent]
      refine HostM.always_seq always_writeOr ?_ ?_
      · rintro v s₁ (⟨-, bytes, hbytes, rfl⟩ | ⟨e, he, -⟩)
        · refine ⟨⟨_, rfl⟩, fun w hw => ⟨(Except.ok.inj hw).symm, ?_⟩⟩
          rw [if_pos rfl]
          -- what was written is read back, as it has no carriage return
          have hcr : chr '\r' ∉ serviceXml := by decide +kernel
          exact ⟨_, put_files s' .service _, readText_writeText hbytes hcr⟩
        · cases he
      · intro e s₁ h
        rw [h.error]
        exact RecordLeft.raised e
  · rintro e s' ⟨rfl, -⟩
    exact RecordLeft.raised e

theorem withdraw_spec (adv : Advertiser) :
    Lib.Program.Always (hostMachine db) adv.withdraw (RecordLeft s false) s := by
  unfold Advertiser.withdraw
  refine HostM.always_seq (HostM.always_call.mpr fun ans s' h => h) ?_ ?_
  · rintro there s' ⟨rfl, hthere⟩
    have hsome : (s'.files .service).isSome = there := Option.some.inj hthere.eq
    -- A record that is there is unlinked; one that is not is left as it is.
    by_cases hpresent : there = true
    · rw [if_pos hpresent]
      refine HostM.always_seq (P := fun r s₁ => ∃ file, s₁ = s'.put .service file ∧
        (r = .ok () → file = none)) ?_ ?_ ?_
      · refine HostM.always_catching (P := fun r s₁ => ∃ file, s₁ = s'.put .service file ∧
          (r = .ok () → file = none)) ?_ (fun _ _ h => h) (fun _ _ h _ => h) ?_
        · rw [HostM.always_call]
          rintro ans s₁ ⟨file, rfl, ⟨-, -, hnone⟩ | ⟨-, hfinds⟩⟩
          · exact ⟨file, rfl, fun _ => hnone⟩
          · refine ⟨file, rfl, fun hok => ?_⟩
            rw [hok] at hfinds
            cases hfinds.eq
        · rintro e s₁ ⟨file, hs₁, -⟩ -
          exact ⟨file, hs₁, fun h => by cases h⟩
      · rintro v s₁ ⟨file, rfl, hnone⟩
        refine ⟨⟨file, rfl⟩, fun w hw => ⟨(Except.ok.inj hw).symm, ?_⟩⟩
        rw [if_neg Bool.false_ne_true, put_files]
        exact hnone rfl
      · rintro e s₁ ⟨file, hs₁, -⟩
        exact ⟨⟨file, hs₁⟩, fun v hv => by cases hv⟩
    · rw [if_neg hpresent]
      refine ⟨⟨_, (put_self s' .service).symm⟩, fun v hv => ⟨(Except.ok.inj hv).symm, ?_⟩⟩
      rw [if_neg Bool.false_ne_true]
      refine Option.isNone_iff_eq_none.mp (Option.isSome_eq_false_iff.mp ?_)
      exact hsome.trans (eq_false_of_ne_true hpresent)
  · rintro e s' ⟨rfl, -⟩
    exact RecordLeft.raised e

/-- The record is there exactly when there is something to announce. -/
theorem reconcile_spec (adv : Advertiser) (shareCount : Nat) :
    Lib.Program.Always (hostMachine db) (adv.reconcile shareCount)
      (RecordLeft s (decide (0 < shareCount))) s := by
  unfold Advertiser.reconcile
  by_cases hcount : 0 < shareCount
  · rw [if_pos hcount, decide_eq_true hcount]
    exact publish_spec adv
  · rw [if_neg hcount, decide_eq_false hcount]
    exact withdraw_spec adv

end Record

section Telling

variable {db : UserDatabase} {s : HostState}

/-- A reload that returns has had Samba read the files. -/
theorem reload_spec :
    Lib.Program.Always (hostMachine db) Control.reloadConfig
      (fun r s' => ∃ loaded, s' = { s with loaded := loaded } ∧
        (r = .ok () → loaded = some s.files)) s := by
  unfold Control.reloadConfig
  refine HostM.always_seq (HostM.always_call.mpr fun ans s' h => h) ?_ ?_
  · rintro result s' ⟨loaded, rfl, hloaded⟩
    by_cases hok : result.isOk = true
    · rw [if_pos hok]
      refine ⟨loaded, rfl, fun _ => ?_⟩
      rcases hloaded with hfiles | ⟨-, hnot⟩
      · exact hfiles
      · exact absurd ((hnot result rfl).symm.trans hok) Bool.false_ne_true
    · rw [if_neg hok]
      exact ⟨loaded, rfl, fun h => by cases h⟩
  · rintro e s' ⟨loaded, rfl, -⟩
    exact ⟨loaded, rfl, fun h => by cases h⟩

theorem dump_spec :
    Lib.Program.Always (hostMachine db) Control.dump
      (fun r s' => ∃ dumped, s' = { s with dumped := dumped } ∧
        ∀ stdout, r = .ok stdout → dumped = some (stdout, s.files)) s := by
  unfold Control.dump
  refine HostM.always_seq (HostM.always_call.mpr fun ans s' h => h) ?_ ?_
  · rintro result s' ⟨dumped, rfl, hdumped⟩
    by_cases hok : result.isOk = true
    · rw [if_pos hok]
      refine ⟨dumped, rfl, fun stdout hstdout => ?_⟩
      rcases hdumped with ⟨r, hr, -, hprinted⟩ | ⟨-, hnot⟩
      · rw [hprinted, ← Except.ok.inj hr, Except.ok.inj hstdout]
      · exact absurd ((hnot result rfl).symm.trans hok) Bool.false_ne_true
    · rw [if_neg hok]
      exact ⟨dumped, rfl, fun _ h => by cases h⟩
  · rintro e s' ⟨dumped, rfl, -⟩
    exact ⟨dumped, rfl, fun _ h => by cases h⟩

/-- Samba has named each of these in what it last printed. -/
def Named (names : List Str) (files : HostFiles) (dumped : Option (Str × HostFiles)) : Prop :=
  ∃ stdout, dumped = some (stdout, files) ∧
    ∀ name ∈ names, name ∈ (Control.effectiveShares stdout).map Prod.fst

variable [Unicode]

theorem verify_spec (names : List Str) :
    Lib.Program.Always (hostMachine db) (Control.verifyPresent names)
      (fun r s' => ∃ dumped, s' = { s with dumped := dumped } ∧
        (r = .ok () → Named names s.files dumped)) s := by
  unfold Control.verifyPresent
  refine HostM.always_seq dump_spec ?_ ?_
  · rintro stdout s' ⟨dumped, rfl, hdumped⟩
    cases hmissing : missingShares names stdout with
    | nil =>
        refine ⟨dumped, rfl, fun _ => ⟨stdout, hdumped stdout rfl, fun name hname => ?_⟩⟩
        by_contra hnot
        have hmem := mem_missingShares.mpr ⟨hname, hnot⟩
        rw [hmissing] at hmem
        exact absurd hmem List.not_mem_nil
    | cons name missing => exact ⟨dumped, rfl, fun h => by cases h⟩
  · rintro e s' ⟨dumped, rfl, -⟩
    exact ⟨dumped, rfl, fun h => by cases h⟩

end Telling

section Applying

variable {db : UserDatabase} {s : HostState}

/-- The text with the block in it, or that had it, has it. -/
theorem hasInclude_insertInclude {text includeLine inserted : Str}
    (h : insertInclude text includeLine = .ok inserted) : hasInclude inserted = true := by
  rcases insertInclude_eq_ok h with ⟨hinc, rfl⟩ | ⟨-, pre, line, post, -, -, -, rfl⟩
  · exact hinc
  · rw [← List.append_assoc]
    have hagain := insertInclude_again includeLine (lineEnding line) (pre.flatten ++ line)
      post.flatten
    rcases insertInclude_eq_ok hagain with ⟨hinc, -⟩ | ⟨hinc, -⟩
    · exact hinc
    · exact absurd rfl (insertInclude_ne hinc hagain)

/-- A file that can be read, with what it says. -/
theorem exists_smbConf {bytes : List UInt8} {text : Str} (h : readText bytes = some text) :
    ∃ f : SmbConf, f.bytes = bytes ∧ f.read = text := by
  rcases Option.map_eq_some_iff.mp h with ⟨decoded, hdecoded, rfl⟩
  exact ⟨⟨bytes, decoded, hdecoded⟩, rfl, rfl⟩

/-- What an insertion has made of `smb.conf`: as it was where it had the marker, and the text
    with the block put in where it had none. So the block is there exactly if it was, or if
    the marker was not and the line of the first header has an end. -/
def IncludedFrom (path : PathLine) (s s' : HostState) : Prop :=
  ∃ old text file inserted, s.files .smbConf = some old ∧ readText old.bytes = some text ∧
    insertInclude text (includeLineOf path) = .ok inserted ∧
    s'.files .smbConf = some file ∧ readText file.bytes = some inserted ∧
    (hasInclude text = true → file = old) ∧
    (HasIncludeBlock path.text inserted ↔
      (hasInclude text = true ∧ HasIncludeBlock path.text text) ∨
        (hasInclude text = false ∧ ∀ header, (splitlines text).find? isGlobalHeader = some header →
          lineTerminated header = true))

/-- The path of an include line is on one line, so only the header's end matters. -/
theorem hasIncludeBlock_of_pathLine {path : PathLine} {text inserted : Str}
    (h : insertInclude text (includeLineOf path) = .ok inserted) :
    HasIncludeBlock path.text inserted ↔
      (hasInclude text = true ∧ HasIncludeBlock path.text text) ∨
        (hasInclude text = false ∧ ∀ header, (splitlines text).find? isGlobalHeader = some header →
          lineTerminated header = true) := by
  refine (hasIncludeBlock_insertInclude h).trans (or_congr_right (and_congr_right fun _ => ?_))
  exact forall₂_congr fun header _ => and_iff_left path.oneLine

/-- An insertion that returned has made of the file what it is for. -/
theorem EditsConf.included {a : Applier} {s' : HostState}
    (h : EditsConf (insertInclude · a.includeLine) s (.ok ()) s')
    (hthere : s.files .smbConf ≠ none) : IncludedFrom a.smbpalConf s s' := by
  rcases h with ⟨rfl, hsame⟩ | ⟨old, text, new, bytes, mode, hold, hread, hedit, hne,
    hbytes, -, rfl⟩
  · rcases Option.ne_none_iff_exists'.mp hthere with ⟨file, hfile⟩
    rcases hsame () rfl file hfile with ⟨text, hread, hedit⟩
    exact ⟨file, text, file, text, hfile, hread, hedit, hfile, hread, fun _ => rfl,
      hasIncludeBlock_of_pathLine hedit⟩
  · rcases exists_smbConf hread with ⟨f, hf, rfl⟩
    rcases insertInclude_plain a.smbpalConf f hedit with ⟨-, written, hwritten, hback⟩
    have hsame : written = bytes := Option.some.inj (hwritten.symm.trans hbytes)
    rw [hsame] at hback
    refine ⟨old, f.read, _, new, hold, hread, hedit, put_files s .smbConf _, hback, fun hinc => ?_,
      hasIncludeBlock_of_pathLine hedit⟩
    -- where the marker is nothing is put in, so nothing was written
    have hkept : insertInclude f.read a.includeLine = .ok f.read := by
      rw [insertInclude, if_pos hinc]
    exact absurd (Except.ok.inj (hedit.symm.trans hkept)) hne

/-- It is a matter of what `smb.conf` was before and is now. -/
theorem IncludedFrom.congr {path : PathLine} {s₁ s' s₂ : HostState}
    (h : IncludedFrom path s s') (hbefore : s₁.files .smbConf = s.files .smbConf)
    (hafter : s₂.files .smbConf = s'.files .smbConf) : IncludedFrom path s₁ s₂ := by
  unfold IncludedFrom at h ⊢
  rw [hbefore, hafter]
  exact h

/-- Where an insertion was before, the next one changes nothing. -/
theorem IncludedFrom.again {path : PathLine} {s₁ s₂ : HostState} (h₁ : IncludedFrom path s s₁)
    (h₂ : IncludedFrom path s₁ s₂) : s₂.files .smbConf = s₁.files .smbConf := by
  rcases h₁ with ⟨_, _, file, inserted, -, -, hinserted, hfile, hread, -⟩
  rcases h₂ with ⟨old, text, again, _, hold, htext, -, hagain, -, hsame, -⟩
  obtain rfl : file = old := Option.some.inj (hfile.symm.trans hold)
  obtain rfl : inserted = text := Option.some.inj (hread.symm.trans htext)
  rw [hagain, hsame (hasInclude_insertInclude hinserted), hold]

theorem EditsConf.put {α : Type} {edit : Str → Except Exc Str} {r : Except HostExc α}
    {s' : HostState} (h : EditsConf edit s r s') : ∃ file, s' = s.put .smbConf file := by
  rcases h with ⟨rfl, -⟩ | ⟨-, -, -, bytes, mode, -, -, -, -, -, -, rfl⟩
  · exact ⟨_, (put_self s' .smbConf).symm⟩
  · exact ⟨_, rfl⟩

theorem mem_expectedNames {planned : List PlannedShare} {name : Str} :
    name ∈ expectedNames planned ↔
      ∃ p ∈ planned, p.share.isEnabled = true ∧ p.share.name = some name := by
  unfold expectedNames enabledOf
  rw [List.mem_dedup, List.mem_filterMap]
  constructor
  · rintro ⟨p, hp, hname⟩
    rw [List.mem_filter] at hp
    exact ⟨p, hp.1, hp.2, hname⟩
  · rintro ⟨p, hp, hon, hname⟩
    exact ⟨p, List.mem_filter.mpr ⟨hp, hon⟩, hname⟩

variable [Unicode]

/-- What an apply that returned has made of the host it began with: the plan is that of the
    directories as they are, none of which is missing that could be made; the two files are
    written, read by Samba and served; and the record is there where there is something to
    announce. -/
structure Serving (db : UserDatabase) (a : Applier) (shares : List Share) (s₀ : HostState)
    (report : ApplyReport) (s : HostState) : Prop where
  planned : plannedIn db s.dirs shares = some report.shares
  made : ∀ item ∈ report.shares, ¬IsMissing db item
  rendered : ∃ text bytes, renderPlanned report.shares = .ok text ∧ encode text = some bytes ∧
    s.files .smbpalConf = some { bytes := bytes, mode := 0o644 }
  included : IncludedFrom a.smbpalConf s₀ s
  loaded : ∃ files, s.loaded = some files ∧ ∀ f, f ≠ .service → files f = s.files f
  named : ∃ files, Named (expectedNames report.shares) files s.dumped ∧
    ∀ f, f ≠ .service → files f = s.files f
  served : ∀ name, name ∈ report.served ↔
    ∃ p ∈ report.shares, p.share.isEnabled = true ∧ p.share.name = some name
  advertising : report.advertising = decide (0 < (enabledOf report.shares).length)
  record : if report.advertising = true then Published s else s.files .service = none

/-- From the reload on, nothing but the record is changed. -/
theorem finish_spec (a : Applier) {shares : List Share} {planned : List PlannedShare}
    {s₀ : HostState}
    (hplanned : plannedIn db s.dirs shares = some planned)
    (hmade : ∀ item ∈ planned, ¬IsMissing db item)
    (hrendered : ∃ text bytes, renderPlanned planned = .ok text ∧ encode text = some bytes ∧
      s.files .smbpalConf = some { bytes := bytes, mode := 0o644 })
    (hincluded : IncludedFrom a.smbpalConf s₀ s) :
    Lib.Program.Always (hostMachine db)
      (do
        Control.reloadConfig
        Control.verifyPresent (expectedNames planned)
        let advertising ← a.advertiser.reconcile (enabledOf planned).length
        pure (ApplyReport.mk planned
          ((expectedNames planned).insertionSort fun x y => strLe x y = true) advertising))
      (fun r s' => ∀ report, r = .ok report → Serving db a shares s₀ report s' ∧
        s'.dirs = s.dirs) s := by
  refine HostM.always_seq reload_spec ?_ (fun e _ _ report h => by cases h)
  rintro reloaded s₁ ⟨loaded, rfl, hloaded⟩
  refine HostM.always_seq (verify_spec _) ?_ (fun e _ _ report h => by cases h)
  rintro verified s₂ ⟨dumped, rfl, hdumped⟩
  refine HostM.always_seq (reconcile_spec _ _) ?_ (fun e _ _ report h => by cases h)
  rintro advertising s₃ ⟨⟨file, rfl⟩, hrecord⟩ report hreport
  rcases hrecord advertising rfl with ⟨hadvertising, hrecord⟩
  -- Advertising writes the record alone, so the other files are those reloaded.
  have hsame : ∀ f, f ≠ .service →
      (HostState.put { s with loaded := loaded, dumped := dumped } .service file).files f =
        s.files f := fun f hf => put_files_ne hf _ file
  rw [← Except.ok.inj hreport]
  refine ⟨⟨hplanned, hmade, ?_, ?_, ?_, ?_, fun name => ?_, hadvertising, ?_⟩, rfl⟩
  · rcases hrendered with ⟨text, bytes, htext, hbytes, hfile⟩
    exact ⟨text, bytes, htext, hbytes, (hsame .smbpalConf (by decide)).trans hfile⟩
  · exact hincluded.congr rfl (hsame .smbConf (by decide))
  · exact ⟨s.files, hloaded rfl, fun f hf => (hsame f hf).symm⟩
  · exact ⟨s.files, hdumped rfl, fun f hf => (hsame f hf).symm⟩
  · rw [List.mem_insertionSort]
    exact mem_expectedNames
  · rw [hadvertising]
    exact hrecord

/-- A directory that is said not to exist does not. -/
theorem dirs_eq_none {dirs : Str → Option Stat} {share : Share} {item : PlannedShare}
    {path : Str} (h : plannedShareIn db dirs share = some item) (hpath : share.path = some path)
    (hexists : item.status.exists_ = false) : dirs path = none := by
  unfold plannedShareIn at h
  rw [hpath, Option.map_some, Option.some.injEq] at h
  rw [← h] at hexists
  unfold plannedAs statusIn at hexists
  cases hdir : dirs path with
  | none => rfl
  | some info =>
      rw [hdir] at hexists
      cases hexists

theorem plannedShareIn_missing {dirs : Str → Option Stat} {share : Share} {path : Str}
    (hpath : share.path = some path) (hdir : dirs path = none) :
    ∃ item, plannedShareIn db dirs share = some item ∧ item.share = share ∧
      item.status.exists_ = false := by
  refine ⟨plannedAs share path (missingDirectory path), ?_, rfl, rfl⟩
  unfold plannedShareIn statusIn
  rw [hpath, Option.map_some, hdir]

theorem plannedShareIn_share {dirs : Str → Option Stat} {share : Share} {item : PlannedShare}
    (h : plannedShareIn db dirs share = some item) :
    item.share = share ∧ ∃ path, share.path = some path := by
  unfold plannedShareIn at h
  rcases Option.map_eq_some_iff.mp h with ⟨path, hpath, rfl⟩
  exact ⟨rfl, path, hpath⟩

/-- Once the missing directories are made, a new plan finds none that could be. -/
theorem none_missing {dirs dirs' : Str → Option Stat} {shares : List Share}
    {before after : List PlannedShare} (hbefore : plannedIn db dirs shares = some before)
    (hafter : plannedIn db dirs' shares = some after)
    (hkept : ∀ path info, dirs path = some info → dirs' path = some info)
    (hmade : ∀ item ∈ before, IsMissing db item →
      ∀ path, item.share.path = some path → dirs' path ≠ none) :
    ∀ item ∈ after, ¬IsMissing db item := by
  unfold plannedIn at hbefore hafter
  induction shares generalizing before after with
  | nil =>
      cases hafter
      exact fun item hitem => absurd hitem List.not_mem_nil
  | cons share shares ih =>
      rw [List.mapM_cons] at hbefore hafter
      rcases Option.bind_eq_some_iff.mp hbefore with ⟨old, hold, hbefore⟩
      rcases Option.bind_eq_some_iff.mp hbefore with ⟨olds, holds, hbefore⟩
      rcases Option.bind_eq_some_iff.mp hafter with ⟨new, hnew, hafter⟩
      rcases Option.bind_eq_some_iff.mp hafter with ⟨news, hnews, hafter⟩
      cases hbefore
      cases hafter
      rw [List.forall_mem_cons] at hmade ⊢
      refine ⟨fun hmissing => ?_, ih holds hnews hmade.2⟩
      rcases plannedShareIn_share hnew with ⟨hshare, path, hpath⟩
      have hnone := dirs_eq_none hnew hpath hmissing.1
      -- it was missing before, and so it was made
      have hnoneBefore : dirs path = none := by
        cases hdir : dirs path with
        | none => rfl
        | some info =>
            have hthere := hkept path info hdir
            rw [hnone] at hthere
            cases hthere
      have hitem : ∃ item, plannedShareIn db dirs share = some item ∧ item.share = share ∧
        item.status.exists_ = false := plannedShareIn_missing hpath hnoneBefore
      rcases hitem with ⟨item, hitem, hitemShare, hexists⟩
      have hsame : item = old := Option.some.inj (hitem.symm.trans hold)
      rw [← hsame] at hmade
      refine hmade.1 ⟨hexists, ?_, ?_⟩ path (hitemShare ▸ hpath) hnone
      · rw [hitemShare, ← hshare]
        exact hmissing.2.1
      · rw [hitemShare, ← hshare]
        exact hmissing.2.2

/-- Where no directory is missing that could be made, none is. -/
theorem createMissingDirectories_none {items : List PlannedShare}
    (h : ∀ item ∈ items, ¬IsMissing db item) :
    Looks db s (Applier.createMissingDirectories items) fun _ => True := by
  induction items with
  | nil => exact Lib.Program.yields_pure trivial
  | cons item items ih =>
      rw [List.forall_mem_cons] at h
      unfold Applier.createMissingDirectories
      refine Lib.Program.yields_bind (R := fun _ => True) ?_ fun _ _ => ih h.2
      unfold Applier.createMissing
      by_cases hskip : item.status.exists_ = true ∨ item.share.isEnabled = false
      · rw [if_pos hskip]
        exact Lib.Program.yields_pure trivial
      · rw [if_neg hskip]
        refine Lib.Program.yields_bind (identityFor_looks item.share) fun identity hidentity => ?_
        rw [not_or, Bool.not_eq_true, Bool.not_eq_false] at hskip
        -- it is missing and enabled, so there is no account
        have hnone : identityIn db item.share = none := by
          by_contra hsome
          exact h.1 ⟨hskip.1, hskip.2, hsome⟩
        rw [hidentity, hnone]
        exact Lib.Program.yields_pure trivial

/-- What an apply that returned has made of the host it began with. -/
structure AppliedFrom (db : UserDatabase) (a : Applier) (shares : List Share) (s : HostState)
    (report : ApplyReport) (s' : HostState) : Prop where
  serving : Serving db a shares s report s'
  /-- No directory was made where none was missing. -/
  dirs : ∀ planned, plannedIn db s.dirs shares = some planned →
    (∀ item ∈ planned, ¬IsMissing db item) → s'.dirs = s.dirs

theorem apply_spec (a : Applier) (doc : Config) :
    Lib.Program.Always (hostMachine db) (a.apply doc)
      (fun r s' => ∀ report, r = .ok report → AppliedFrom db a doc.shares s report s') s := by
  unfold Applier.apply
  refine HostM.always_seq (plan_looks doc.shares s rfl) ?_ (fun e _ _ report h => by cases h)
  rintro before s' ⟨rfl, hbefore⟩
  have hbefore := hbefore before rfl
  have hnothing : (∀ item ∈ before, ¬IsMissing db item) →
      Lib.Program.Always (hostMachine db) (Applier.createMissingDirectories before)
        (fun _ s₁ => s₁ = s') s' := fun hnone =>
    Lib.Program.always_mono (createMissingDirectories_none hnone s' rfl) fun _ _ h => h.1
  refine HostM.always_seq (P := fun r s₁ => (DirsGrow s' s₁ ∧ (r = .ok () → ∀ item ∈ before,
    IsMissing db item → ∀ path, item.share.path = some path → s₁.dirs path ≠ none)) ∧
      ((∀ item ∈ before, ¬IsMissing db item) → s₁ = s')) ?_ ?_ (fun e _ _ report h => by cases h)
  · rw [Lib.Program.always_iff]
    intro r s₁ hx
    exact ⟨Lib.Program.always_exec (createMissingDirectories_spec before) hx, fun hnone =>
      Lib.Program.always_exec (hnothing hnone) hx⟩
  rintro _ s₁ ⟨⟨hgrow, hmade⟩, hnone⟩
  refine HostM.always_seq (plan_looks doc.shares s₁ rfl) ?_ (fun e _ _ report h => by cases h)
  rintro planned s₂ ⟨rfl, hplanned⟩
  have hplanned := hplanned planned rfl
  refine HostM.always_seq (check_looks (renderPlanned planned) s₂ rfl) ?_
    (fun e _ _ report h => by cases h)
  rintro rendered s₃ ⟨rfl, hrendered⟩
  refine HostM.always_seq always_writeOr ?_ (fun e _ _ report h => by cases h)
  rintro written s₄ (⟨-, bytes, hbytes, rfl⟩ | ⟨e, he, -⟩)
  · refine HostM.always_seq (ensureInclude_spec a) ?_ (fun e _ _ report h => by cases h)
    rintro _ s₅ ⟨hedits, hfound⟩
    -- nothing before it has touched `smb.conf`
    have hwritten : (s₃.put .smbpalConf (some { bytes := bytes, mode := 0o644 })).files .smbConf =
        s'.files .smbConf := by
      rw [put_files_ne (by decide), hgrow.files]
    have hincluded := (hedits.included (hfound rfl)).congr hwritten.symm rfl
    rcases hedits.put with ⟨conf, rfl⟩
    have hnow : plannedIn db ((s₃.put .smbpalConf (some { bytes := bytes, mode := 0o644 })).put
        .smbConf conf).dirs doc.shares = some planned := hplanned
    refine Lib.Program.always_mono (finish_spec a hnow
      (none_missing hbefore hplanned hgrow.kept (hmade rfl))
      ⟨rendered, bytes, hrendered rendered rfl, hbytes, ?_⟩ hincluded) ?_
    · rw [put_files_ne (by decide), put_files]
    · intro r s₆ h report hreport
      rcases h report hreport with ⟨hserving, hdirs⟩
      refine ⟨hserving, fun planned₁ hplanned₁ hnone₁ => hdirs.trans ?_⟩
      have hsame : planned₁ = before := Option.some.inj (hplanned₁.symm.trans hbefore)
      rw [hsame] at hnone₁
      have hstay := congrArg HostState.dirs (hnone hnone₁)
      exact hstay
  · cases he

/-- When an apply returns, `smbpal.conf` holds the plan and `smb.conf` what an insertion makes
    of it, Samba has read them and names every enabled share, and the record is there exactly
    when one is. -/
theorem apply_serves {a : Applier} {doc : Config} {report : ApplyReport} {s' : HostState}
    (h : Lib.Program.Exec (hostMachine db) (a.apply doc) s (.ok report) s') :
    Serving db a doc.shares s report s' :=
  (Lib.Program.always_exec (apply_spec a doc) h report rfl).serving

end Applying

section Films

attribute [local instance] Unicode.ascii

/-- One account. -/
def filmsUsers : UserDatabase where
  passwd := fun name => if name = str "ada" then some (1000, 1000) else none
  groups := []
  userName := fun uid => if uid = 1000 then some (str "ada") else none

/-- The files before there was an apply. -/
def stockFiles : HostFiles
  | .smbConf => some { bytes := stockConf.bytes, mode := 0o644 }
  | _ => none

/-- Her folder is there. -/
def filmsHost : HostState where
  files := stockFiles
  dirs := fun path => if path = str "/srv/films" then some ⟨1000, 1000, 0o40755⟩ else none
  loaded := none
  dumped := none

theorem filmsHost_smbConf :
    filmsHost.files .smbConf = some { bytes := stockConf.bytes, mode := 0o644 } :=
  rfl

/-- The applier on its default paths. -/
def filmsApplier : Applier where
  toSambaApplier := defaultApplier
  advertiser := ⟨str "/etc/avahi/services/smbpal.service"⟩

/-- What `testparm` prints of them. -/
def filmsDump : Str :=
  str "[Films]\n\tpath = /srv/films\n"

/-- The same host, where the record cannot be read. -/
def guardedHost (db : UserDatabase) (stdout : Str) :
    (op : HostOp) → HostState → Except HostExc op.Value × HostState
  | .readText .service, s => (.error (.os []), s)
  | op, s => obligingHost db stdout op s

theorem hostMachine_guarded (db : UserDatabase) (stdout : Str) (op : HostOp) (s : HostState) :
    hostMachine db op s (guardedHost db stdout op s).1 (guardedHost db stdout op s).2 := by
  unfold guardedHost
  split
  · exact ⟨rfl, Or.inr ⟨.os [], rfl, rfl, fun _ => rfl⟩⟩
  · exact hostMachine_obliging db stdout op s

/-- A program returns and leaves this host, where it is answered so. -/
theorem exec_films {α : Type} {p : HostM α} {s s' : HostState}
    {host : (op : HostOp) → HostState → Except HostExc op.Value × HostState}
    (hhost : ∀ op s, hostMachine filmsUsers op s (host op s).1 (host op s).2)
    (h : (p.run host s).1.isOk = true) (hs' : (p.run host s).2 = s') :
    ∃ v, Lib.Program.Exec (hostMachine filmsUsers) p s (.ok v) s' := by
  have hx := Lib.Program.exec_run hhost p s
  rw [hs'] at hx
  cases hr : (p.run host s).1 with
  | ok v =>
      rw [hr] at hx
      exact ⟨v, hx⟩
  | error e =>
      rw [hr] at h
      exact absurd h Bool.false_ne_true

/-- The host after her folder was shared. -/
def filmsServed : HostState :=
  ((filmsApplier.apply (sharing "/srv/films")).run (obligingHost filmsUsers filmsDump)
    filmsHost).2

set_option maxRecDepth 10000 in
/-- The apply returns. -/
theorem films_applied :
    ((filmsApplier.apply (sharing "/srv/films")).run (obligingHost filmsUsers filmsDump)
      filmsHost).1.isOk = true := by
  decide +kernel

theorem exec_films_applied : ∃ report, Lib.Program.Exec (hostMachine filmsUsers)
    (filmsApplier.apply (sharing "/srv/films")) filmsHost (.ok report) filmsServed := by
  refine exec_films (hostMachine_obliging filmsUsers filmsDump) films_applied ?_
  rw [filmsServed]

set_option maxRecDepth 10000 in
/-- The file has no marker, and a header with an end. -/
theorem stockConf_takes : hasInclude stockConf.read = false ∧
    ∀ header, (splitlines stockConf.read).find? isGlobalHeader = some header →
      lineTerminated header = true := by
  have hfind : (splitlines stockConf.read).find? isGlobalHeader = some (str "[global]\n") := by
    decide +kernel
  refine ⟨by decide +kernel, fun header hheader => ?_⟩
  rw [← Option.some.inj (hfind.symm.trans hheader)]
  decide

/-- Her folder is served, and the block is in `smb.conf`. -/
theorem apply_serves_films : ∃ report,
    Serving filmsUsers filmsApplier (sharing "/srv/films").shares filmsHost report filmsServed ∧
    ∃ file text, filmsServed.files .smbConf = some file ∧ readText file.bytes = some text ∧
      HasIncludeBlock (str "/etc/samba/smbpal.conf") text := by
  rcases exec_films_applied with ⟨report, hx⟩
  have hserving := apply_serves hx
  refine ⟨report, hserving, ?_⟩
  rcases hserving.included with
    ⟨old, text, file, inserted, hold, hread, -, hfile, hback, -, hblock⟩
  have hbytes : old.bytes = stockConf.bytes :=
    congrArg DirFile.bytes (Option.some.inj (hold.symm.trans filmsHost_smbConf))
  rw [hbytes, SmbConf.readText_bytes] at hread
  obtain rfl : stockConf.read = text := Option.some.inj hread
  exact ⟨file, inserted, hfile, hback, hblock.mpr (Or.inr stockConf_takes)⟩

end Films

section Again

variable [Unicode] {db : UserDatabase} {s : HostState}

/-- A second apply that returns plans the same, and leaves the files and the directories. -/
theorem apply_again {a : Applier} {doc : Config} {first second : ApplyReport}
    {s₁ s₂ : HostState}
    (h₁ : Lib.Program.Exec (hostMachine db) (a.apply doc) s (.ok first) s₁)
    (h₂ : Lib.Program.Exec (hostMachine db) (a.apply doc) s₁ (.ok second) s₂) :
    second.shares = first.shares ∧ second.advertising = first.advertising ∧
      s₂.dirs = s₁.dirs ∧ ∀ f, f ≠ .service → s₂.files f = s₁.files f := by
  have hfirst := (Lib.Program.always_exec (apply_spec a doc) h₁ first rfl).serving
  have happlied := Lib.Program.always_exec (apply_spec a doc) h₂ second rfl
  have hsecond := happlied.serving
  -- Nothing is missing after the first, so the second makes no directory.
  have hdirs : s₂.dirs = s₁.dirs := happlied.dirs first.shares hfirst.planned hfirst.made
  have hshares : second.shares = first.shares := by
    have hplanned := hsecond.planned
    rw [hdirs, hfirst.planned] at hplanned
    exact (Option.some.inj hplanned).symm
  refine ⟨hshares, ?_, hdirs, fun f hf => ?_⟩
  · rw [hsecond.advertising, hfirst.advertising, hshares]
  · cases f with
    | smbConf => exact hfirst.included.again hsecond.included
    | smbpalConf =>
        rcases hfirst.rendered with ⟨text, bytes, htext, hbytes, hfile⟩
        rcases hsecond.rendered with ⟨text', bytes', htext', hbytes', hfile'⟩
        rw [hshares, htext] at htext'
        rw [← Except.ok.inj htext', hbytes] at hbytes'
        rw [hfile, hfile', Option.some.inj hbytes']
    | service => exact absurd rfl hf

end Again

section Films

attribute [local instance] Unicode.ascii

set_option maxRecDepth 10000 in
/-- It is applied again, with the record there. -/
theorem films_applied_again :
    ((filmsApplier.apply (sharing "/srv/films")).run (guardedHost filmsUsers filmsDump)
      filmsServed).1.isOk = true := by
  decide +kernel

theorem apply_again_films : ∃ (first second : ApplyReport) (s₂ : HostState),
    second.shares = first.shares ∧ second.advertising = first.advertising ∧
      s₂.dirs = filmsServed.dirs ∧ ∀ f, f ≠ .service → s₂.files f = filmsServed.files f := by
  rcases exec_films_applied with ⟨first, hfirst⟩
  rcases exec_films (hostMachine_guarded filmsUsers filmsDump) films_applied_again rfl with
    ⟨second, hsecond⟩
  exact ⟨first, second, _, apply_again hfirst hsecond⟩

end Films

end Smbpal
