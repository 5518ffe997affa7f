import Smbpal.Python.Text

/-!
# Errors

`errors.py`, with the subclasses other modules add: what an error that is safe
to report carries, and what else can be raised.

A method catches `SmbpalError`, `Exception` or `BaseException`, and which one it
catches decides what it undoes. `Exc` keeps the three apart: `smbpal` is caught
by all of them, `os` is an `OSError`, `exception` is any other `Exception`, and
`interrupt` is one that only `BaseException` names.

## Main definitions

* `ErrorCode`: The closed set of codes.
* `SmbpalError`: A code with a message and perhaps a detail.
* `Exc`: Anything that can be raised.
-/

namespace Smbpal

/-- The class of a `SmbpalError`. -/
inductive ErrorCode where
  | internal
  | badRequest
  | unsupportedVersion
  | unknownMethod
  | notSupported
  | invalidParams
  | configInvalid
  | configIO
  | notPermitted
  /-- It names the right to acquire. -/
  | needsAuthorisation (right : Str)
  | notFound
  | alreadyExists
  | credentials
  | credential
  | mountFailed
  | systemd
  | applyFailed
  | smbConf
  | generationRefused
  | agent
  deriving DecidableEq

/-- An error that is safe to report to a client. -/
structure SmbpalError where
  code : ErrorCode
  message : Str
  detail : Option Str
  deriving DecidableEq

/-- Anything Python can raise, by what catches it. -/
inductive Exc where
  /-- Caught by `except SmbpalError`. -/
  | smbpal (e : SmbpalError)
  /-- Caught by `except OSError` and `except Exception`. -/
  | os (detail : Str)
  /-- Caught by `except Exception`. -/
  | exception
  /-- Caught by `except BaseException` only. -/
  | interrupt
  deriving DecidableEq

/-- Raise an error without a detail. -/
def Exc.of (code : ErrorCode) (message : Str) : Exc :=
  .smbpal { code := code, message := message, detail := none }

/-- Raise an error with a detail. -/
def Exc.detailed (code : ErrorCode) (message detail : Str) : Exc :=
  .smbpal { code := code, message := message, detail := some detail }

end Smbpal
