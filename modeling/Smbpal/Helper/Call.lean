import Smbpal.Helper.Serve

/-!
# What a Call to the Helper Is Worth

`Helper.call` in `smbpal/system/helper.py`: one request over one connection, and what is made
of what comes back.

The request may not arrive whole, since the daemon gives up or the connection breaks, and of
the answer any beginning may come back, since the helper gives up or is stopped. The daemon
takes what it gets for a success if its first line is `OK`. What is shown is that it then
always was one: the helper has accepted exactly the request the call is about, all of it, and
has seen what it reports (`call_believed`). So `check_grant`, which is whether the call
returns, says yes only if the helper verified this form for this right, and a share whose
publishing returned is there and on the list.

## Main definitions

* `helperCall`: The client.
* `Conversation`: What the two sides do and what passes between them.

## Theorems

* `helperAnswer_ok`: Only an answer of `OK` begins like one.
* `call_believed`: What a call that returns says.
-/

namespace Smbpal

open Lib Program

section Client

/-- What `call` raises: the message, and the helper's word for it, if it gave one. -/
structure HelperCallError where
  message : Str
  token : Option (List UInt8)

/-- What becomes of asking: what came back, or an exception of the socket's. -/
inductive Asking where
  | answered (answer : List UInt8)
  | fileNotFound
  | permission
  | timeout
  | osError

/-- What `call` makes of an answer. -/
def helperAnswer (verb : Str) (answer : List UInt8) : Except HelperCallError (List UInt8) :=
  let status := answer.takeWhile fun b => b != 10
  let payload := (answer.dropWhile fun b => b != 10).drop 1
  if status = cBytes "OK" then .ok payload
  else if cBytes "ERR " <+: status then
    .error { message := str "the helper refused " ++ verb, token := some (status.drop 4) }
  else
    .error
      { message := str "the helper answered " ++ verb ++ str " with something unrecognised"
        token := none }

/-- `Helper.call`, once the frame is made. -/
def helperCall (verb timeout : Str) : Asking → Except HelperCallError (List UInt8)
  | .answered answer => helperAnswer verb answer
  | .fileNotFound =>
      .error { message := str "the privileged helper is not running", token := none }
  | .permission =>
      .error { message := str "only the daemon may talk to the privileged helper", token := none }
  | .timeout =>
      .error
        { message := str "the helper did not answer " ++ verb ++ str " within " ++
        timeout ++ str "s"
          token := none }
  | .osError => .error { message := str "could not ask the helper for " ++ verb, token := none }

end Client

section Conversations

/-- The daemon has sent a frame, of which any beginning arrived; the helper went through with
    it and saw what it saw; and of its answer any beginning came back. -/
structure Conversation (expectedPeer : Nat) (frame : List UInt8) (conn : Connecting)
    (log : ServeLog) (answer : List UInt8) : Prop where
  arrives : arrived conn.parts <+: frame
  serves : ∃ reply, Exec logMachine (serveOne expectedPeer conn) [] (.ok reply) log ∧
    answer <+: reply.bytes

/-- Only a beginning of an answer of `OK` is taken for one, and its payload is the beginning
    of what the helper sent. -/
theorem helperAnswer_ok {verb : Str} {reply : ServeReply} {answer payload : List UInt8}
    (hpre : answer <+: reply.bytes) (h : helperAnswer verb answer = .ok payload) :
    ∃ sent, reply = .ok sent ∧ payload <+: sent := by
  unfold helperAnswer at h
  dsimp only at h
  by_cases hstatus : (answer.takeWhile fun b => b != 10) = cBytes "OK"
  · rw [if_pos hstatus] at h
    have hok : cBytes "OK" <+: answer := hstatus ▸ List.takeWhile_prefix _
    rcases hok with ⟨rest, hrest⟩
    cases reply with
    | err token =>
        -- an error begins with an `E`
        have hhead : (cBytes "OK" ++ rest).head? = some 69 := by
          rw [hrest]
          rcases hpre with ⟨more, hmore⟩
          have hne : answer ≠ [] := by
            rw [← hrest]
            exact List.cons_ne_nil _ _
          have happ : (answer ++ more).head? = answer.head? := List.head?_append_of_ne_nil _ hne
          rw [← happ, hmore]
          rfl
        exact absurd hhead (by
          change some (79 : UInt8) ≠ some 69
          decide)
    | ok sent =>
        refine ⟨sent, rfl, ?_⟩
        have hpayload := Except.ok.inj h
        subst hpayload
        subst hrest
        have hbytes : rest <+: 10 :: sent := (List.prefix_append_right_inj [79, 75]).mp hpre
        cases rest with
        | nil => exact List.nil_prefix
        | cons b rest =>
            -- the line ends where the answer's own first line does
            rcases List.cons_prefix_cons.mp hbytes with ⟨rfl, hsent⟩
            exact hsent
  · rw [if_neg hstatus] at h
    split at h <;> exact nomatch h

/-- What is written and accepted is the request. -/
theorem accepted_carries {verb : Str} {auth : Option (List UInt8)} {args : List Str}
    {frame : List UInt8} {parts : List Part} {ending : PartsEnd} {req : HelperRequest}
    (hframe : helperFrame verb auth args = .ok frame) (hparts : arrived parts <+: frame)
    (haccept : acceptFrame parts ending = some req) :
    arrived parts = frame ∧ Carries req verb auth args := by
  by_cases hclean : (verb :: args).any hasLineEnd = true
  · rcases @helperFrame_lineEnd verb auth args hclean with ⟨message, detail, herror⟩
    exact nomatch herror.symm.trans hframe
  by_cases hplain : ∀ s ∈ verb :: args, IsPlain s
  · rw [helperFrame_plain hclean hplain] at hframe
    have hwritten := Except.ok.inj hframe
    rcases acceptFrame_sound hclean hplain hwritten.symm hparts haccept with ⟨hall, -, -, rfl⟩
    exact ⟨hall, carries_utf8 hplain⟩
  · rw [helperFrame_surrogate hclean hplain] at hframe
    exact nomatch hframe

/-- A call that returns was a request of the daemon's that arrived whole, meant this and
    nothing else, and was answered by what was seen. -/
theorem call_believed (expectedPeer : Nat) (verb timeout : Str) (auth : Option (List UInt8))
    (args : List Str) (frame answer payload : List UInt8) (conn : Connecting) (log : ServeLog)
    (hframe : helperFrame verb auth args = .ok frame)
    (hconv : Conversation expectedPeer frame conn log answer)
    (hcall : helperCall verb timeout (.answered answer) = .ok payload) :
    conn.peer = some expectedPeer ∧ arrived conn.parts = frame ∧
      ∃ req, Carries req verb auth args ∧ Done req log := by
  rcases hconv.serves with ⟨reply, hrun, hpre⟩
  rcases helperAnswer_ok hpre hcall with ⟨sent, rfl, -⟩
  rcases (checks_serveOne.justified (justified_nil _) hrun).2 sent rfl with
    ⟨hpeer, req, haccept, hdone⟩
  rcases accepted_carries hframe hconv.arrives haccept with ⟨hall, hcarries⟩
  exact ⟨hpeer, hall, req, hcarries, hdone⟩

/-! ### A conversation -/

/-- The daemon asks about this form. -/
def askedForm : List UInt8 :=
  List.replicate authFormBytes 7

/-- The bytes it sends. -/
def askedFrame : List UInt8 :=
  cBytes ("VERB auth.check\nAUTH " ++ String.ofList (List.replicate 32 ['0', '7']).flatten ++
    "\nARG app.smbpal.manage-shares\nEND\n")

/-- The connection they come over, in two parts. -/
def askedConn : Connecting where
  peer := some 201
  parts := [⟨askedFrame.take 20, by decide +kernel⟩, ⟨askedFrame.drop 20, by decide +kernel⟩]
  ending := .closed

/-- What the helper reads of it. -/
def askedRequest : HelperRequest where
  verb := cBytes "auth.check"
  auth := some askedForm
  args := [manageSharesRight]

theorem accepts_asked : acceptFrame askedConn.parts askedConn.ending = some askedRequest := by
  decide +kernel

/-- The helper verifies the form, and says so. -/
theorem conversation_asked : Conversation 201 askedFrame askedConn
    [⟨.verifyForm manageSharesRight askedForm, true⟩] (cBytes "OK\n") where
  arrives := by decide +kernel
  serves := by
    refine ⟨.ok [], ?_, List.prefix_rfl⟩
    rw [serveOne_request rfl accepts_asked, serveVerb, if_neg (by decide), if_pos (by decide)]
    exact Exec.perform (S := serveSig) true rfl (Exec.ret _ _)

/-- Such a call, of which the whole answer came back. -/
theorem call_believed_asked :
    askedConn.peer = some 201 ∧ arrived askedConn.parts = askedFrame ∧
      ∃ req, Carries req (str "auth.check") (some askedForm) [str "app.smbpal.manage-shares"] ∧
        Done req [⟨.verifyForm manageSharesRight askedForm, true⟩] := by
  have hframe : (helperFrame (str "auth.check") (some askedForm)
      [str "app.smbpal.manage-shares"]).toOption = some askedFrame := by decide +kernel
  refine call_believed 201 (str "auth.check") (str "10.0") (some askedForm)
    [str "app.smbpal.manage-shares"] askedFrame (cBytes "OK\n") [] askedConn _ ?_
    conversation_asked rfl
  cases hwritten : helperFrame (str "auth.check") (some askedForm)
      [str "app.smbpal.manage-shares"] with
  | error e =>
      rw [hwritten] at hframe
      exact nomatch hframe
  | ok frame =>
      rw [hwritten] at hframe
      exact congrArg _ (Option.some.inj hframe)

end Conversations

end Smbpal
