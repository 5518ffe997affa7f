import Smbpal.Python.Files
import Smbpal.Errors
import Smbpal.Python.Json

/-!
# The Wire Format

`ipc/protocol.py`: what the daemon makes of one line from its socket.

Everything that arrives is untrusted, so a request is what is left when each of
a row of checks has passed, and each says what it refused. A request may carry
32 bytes of authorisation, which are no parameter of any method.

## Main definitions

* `WireRequest`: `Request`.
* `fromHex`: `bytes.fromhex`.
* `parseRequest`: `parse_request`.
-/

namespace Smbpal

/-- A request, as it came over the socket. -/
structure WireRequest where
  id : Str
  method : Str
  params : List (Str × Json)
  auth : Option (List UInt8)

/-- `PROTOCOL_VERSION`. -/
def protocolVersion : Int := 1

/-- `MAX_FRAME_BYTES`. -/
def maxFrameBytes : Nat := 1024 * 1024

/-- `AUTH_FORM_BYTES`. -/
def authFormBytes : Nat := 32

/-- What `bytes.fromhex` skips between two bytes. -/
def isAsciiSpace (c : PyChar) : Bool :=
  decide (ord c = 32) || decide (9 ≤ ord c ∧ ord c ≤ 13)

/-- `bytes.fromhex`. -/
def fromHex : Str → Option (List UInt8)
  | [] => some []
  | c :: s =>
      if isAsciiSpace c then fromHex s
      else
        match s with
        | [] => none
        | d :: s => do
            let high ← hexValue c
            let low ← hexValue d
            let rest ← fromHex s
            pure (UInt8.ofNat (high * 16 + low) :: rest)

/-- A member that has to be a string with something in it. -/
def requireMember (doc : List (Str × Json)) (key : String) : Except Exc Str :=
  match getMember doc key with
  | some (.string s) =>
      if s = [] then
        .error (.of .badRequest (str "request needs a non-empty string '" ++ str key ++ str "'"))
      else .ok s
  | _ => .error (.of .badRequest (str "request needs a non-empty string '" ++ str key ++ str "'"))

/-- The parameters; none are like an empty object. -/
def paramsMember (doc : List (Str × Json)) : Except Exc (List (Str × Json)) :=
  match getMember doc "params" with
  | none => .ok []
  | some .null => .ok []
  | some (.object params) => .ok params
  | some _ => .error (.of .badRequest (str "'params' must be an object when present"))

/-- The authorisation, when there is one. -/
def authMember (doc : List (Str × Json)) : Except Exc (Option (List UInt8)) :=
  match getMember doc "auth" with
  | none => .ok none
  | some .null => .ok none
  | some (.string hex) =>
      match fromHex hex with
      | none => .error (.of .badRequest (str "'auth' is not valid hex"))
      | some form =>
          if form.length = authFormBytes then .ok (some form)
          else
            .error (.of .badRequest (str "'auth' must be " ++ digits authFormBytes ++
              str " bytes as hex, got " ++ digits form.length))
  | some _ => .error (.of .badRequest (str "'auth' must be a hex string when present"))

section Parse

variable [JsonText]

/-- The text a line holds. -/
def decodeLine (line : List UInt8) : Except Exc Str :=
  if maxFrameBytes < line.length then
    .error (.of .badRequest (str "request is larger than the " ++ digits maxFrameBytes ++
      str " byte limit"))
  else
    match decodeUtf8 line with
    | some text => .ok text
    | none => .error (.of .badRequest (str "request is not valid UTF-8"))

/-- The object a text holds. -/
def loadObject (text : Str) : Except Exc (List (Str × Json)) :=
  match loads text with
  | .ok (.object doc) => .ok doc
  | .ok _ => .error (.of .badRequest (str "request must be a JSON object"))
  | .error (.decode message) => .error
    (.detailed .badRequest (str "request is not valid JSON") message)
  | .error .other => .error .exception

/-- The version a request declares, which has to be ours. -/
def checkProtocol (doc : List (Str × Json)) : Except Exc Unit :=
  let declared := (getMember doc "v").getD .null
  if declared.equalsInt protocolVersion then .ok ()
  else
    .error (.of .unsupportedVersion (str "this daemon speaks protocol version " ++
      digits protocolVersion.toNat ++ str ", the request declared " ++ reprJson declared))

/-- `parse_request`. -/
def parseRequest (line : List UInt8) : Except Exc WireRequest := do
  let text ← decodeLine line
  let doc ← loadObject text
  checkProtocol doc
  let id ← requireMember doc "id"
  let method ← requireMember doc "method"
  let params ← paramsMember doc
  let auth ← authMember doc
  pure
    { id := id
      method := method
      params := params
      auth := auth }

end Parse

end Smbpal
