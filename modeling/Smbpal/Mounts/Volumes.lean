import Smbpal.Errors

/-!
# Mounts on macOS

`mounts/volumes.py` and `netfs.smb_url`: what names a share across the config,
the mount table and a URL.

A share is known by a host without its brackets and a share name, both in lower
case. The kernel's table names every mount so, and says whose it is.

## Main definitions

* `SmbMount`: One mounted share, as the kernel describes it.
* `mountKey`: What identifies a share.
* `quote`, `netfsSmbUrl`: The URL of a share.
-/

namespace Smbpal

/-- What identifies a share across the config and the mount table. -/
abbrev MountKey := Str × Str

/-- One mounted SMB share. Two mounts at one path at different times differ in
    `fsid`. -/
structure SmbMount where
  host : Str
  share : Str
  mountpoint : Str
  ownerUid : Nat
  fsid : Nat × Nat
  deriving DecidableEq

section Volumes

/-- What `quote` leaves as it is, with nothing declared safe. -/
def isUnreserved (b : UInt8) : Bool :=
  decide (97 ≤ b ∧ b ≤ 122) || decide (65 ≤ b ∧ b ≤ 90) || decide (48 ≤ b ∧ b ≤ 57) ||
    decide (b = 95) || decide (b = 46) || decide (b = 45) || decide (b = 126)

/-- An upper-case hexadecimal digit. -/
def hexDigit (n : Nat) : PyChar :=
  chr (if n < 10 then Char.ofNat (48 + n) else Char.ofNat (55 + n))

/-- One byte in a URL. -/
def quoteByte (b : UInt8) : Str :=
  if isUnreserved b then [chr (Char.ofNat b.toNat)]
  else [chr '%', hexDigit (b.toNat / 16), hexDigit (b.toNat % 16)]

/-- `quote(s, safe='')`, which a lone surrogate fails. -/
def quote (s : Str) : Option Str :=
  (encode s).map fun bytes => bytes.flatMap quoteByte

/-- `netfs.smb_url`. -/
def netfsSmbUrl (host share : Str) : Except Exc Str :=
  let host := if chr ':' ∈ host ∧ startsWith host "[" = false then str "[" ++ host ++ str "]"
    else host
  match quote share with
  | some quoted => .ok (str "smb://" ++ host ++ str "/" ++ quoted)
  | none => .error .exception

theorem netfsSmbUrl_ok_iff (host share : Str) :
    (∃ url, netfsSmbUrl host share = .ok url) ↔ encode share ≠ none := by
  unfold netfsSmbUrl quote
  cases encode share with
  | none => simp
  | some bytes => simp

variable [Unicode]

/-- `host.strip("[]")`. -/
def stripBrackets (host : Str) : Str :=
  stripWhile (fun c => decide (c = chr '[' ∨ c = chr ']')) host

/-- `mount_key`. -/
def mountKey (host share : Str) : MountKey :=
  (lower (stripBrackets host), lower share)

/-- The share a mount is of. -/
def SmbMount.key (m : SmbMount) : MountKey :=
  mountKey m.host m.share

end Volumes

end Smbpal
