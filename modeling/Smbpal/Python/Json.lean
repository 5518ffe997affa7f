import Mathlib.Data.Rat.Defs
import Smbpal.Python.Text

/-!
# JSON Values

What `json.loads` makes of a text, as Python has it.

Python's equality goes across the kinds of numbers, and a boolean is one of
them, so a comparison with a number says more than that a value is that number
(`Json.equalsInt`). The reader of the text is Python's own, and a parameter.

## Main definitions

* `Json`: A value.
* `Json.equalsInt`: `==` with an integer.
* `JsonText`: Python's reader of JSON text, and its `repr` of what it read.
-/

namespace Smbpal

/-- A float: a number, or one of those that are none. -/
inductive PyFloat where
  | finite (q : Rat)
  | infinity
  | minusInfinity
  | nan
  deriving DecidableEq

/-- A value `json.loads` returns. The keys of an object are all different. -/
inductive Json where
  | null
  | bool (b : Bool)
  | int (n : Int)
  | float (x : PyFloat)
  | string (s : Str)
  | array (items : List Json)
  | object (members : List (Str × Json))

/-- `==` with an integer. -/
def Json.equalsInt (n : Int) : Json → Bool
  | .bool b => decide ((if b then 1 else 0) = n)
  | .int m => decide (m = n)
  | .float (.finite q) => decide (q = n)
  | _ => false

/-- `.get(key)` on an object, none when the key is not there. -/
def getMember (members : List (Str × Json)) (key : String) : Option Json :=
  members.lookup (str key)

/-- What `json.loads` raises: that the text is no JSON, and why, or anything else
    (a text nested too deeply, a number too long). -/
inductive JsonError where
  | decode (message : Str)
  | other

/-- What Python reads a text as, or what it raises, and `repr` of a value. -/
class JsonText where
  loads : Str → Except JsonError Json
  /-- The text of `repr`, where it returns one. -/
  reprJson : Json → Str
  /-- How many lists and objects inside each other `repr` has room for. -/
  reprLevels : Nat

export JsonText (loads reprJson reprLevels)

/-- A reader of no text, and a `repr` of nothing, where neither is asked. -/
@[reducible] def JsonText.none : JsonText where
  loads := fun _ => .error .other
  reprJson := fun _ => []
  reprLevels := 0

end Smbpal
