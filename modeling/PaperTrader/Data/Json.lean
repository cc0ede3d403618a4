/-
**Python values at the program's edges.**

The feed and the state file hand the program JSON values, which it turns into numbers with
`float()`. Their Python semantics, as the code relies on it:

* `PyFloat` — a Python float: the finite values exact, as elsewhere in the development, and
  `inf`, `-inf` and `nan`, with Python's `<` and `<=` (`PyFloat.lt`, `PyFloat.le`), false whenever
  `nan` is compared;
* `JsonValue` — what `json.loads` returns, with `truthy` (Python's truth value), `orElse`
  (`a or b`), `get` (`d.get(key)`, which raises on anything but a dict) and `iter` (`for x in v`);
* `PyBuiltins` — `float()` of a string and `str()` of a value that is not one, left open: every
  result holds for every choice of them;
* `pyFloat`, `safeFloat` — `float(x)` and the source's `safe_float(x)`;
* `PyFloat.lt_iff`, `PyFloat.le_iff` — away from `nan`, Python's comparisons are the order of
  the extended line (`PyFloat.toExt`).
-/

import Mathlib.Order.WithBot
import Mathlib.Algebra.Order.Ring.Rat

namespace PaperTrader

/-- A Python float. -/
inductive PyFloat
  | finite (x : ℚ)
  | inf
  | negInf
  | nan
  deriving DecidableEq, Repr

namespace PyFloat

/-- Python's `a < b` on floats. -/
def lt : PyFloat → PyFloat → Bool
  | finite a, finite b => decide (a < b)
  | negInf, finite _ => true
  | negInf, inf => true
  | finite _, inf => true
  | _, _ => false

/-- Python's `a <= b` on floats. -/
def le : PyFloat → PyFloat → Bool
  | finite a, finite b => decide (a ≤ b)
  | negInf, nan => false
  | negInf, _ => true
  | finite _, inf => true
  | inf, inf => true
  | _, _ => false

/-- The value of a finite float. -/
def toRat? : PyFloat → Option ℚ
  | finite x => some x
  | _ => none

/-- Where a float lies on the extended line; `nan`, which lies nowhere, is sent to `⊥`. -/
def toExt : PyFloat → WithBot (WithTop ℚ)
  | finite x => ((x : WithTop ℚ) : WithBot (WithTop ℚ))
  | inf => ((⊤ : WithTop ℚ) : WithBot (WithTop ℚ))
  | negInf => ⊥
  | nan => ⊥

theorem lt_iff {a b : PyFloat} (numA : a ≠ nan) (numB : b ≠ nan) :
    a.lt b = true ↔ a.toExt < b.toExt := by
  cases a <;> cases b <;> simp_all [lt, toExt, WithBot.bot_lt_coe]
  exact WithBot.coe_lt_coe.mpr (WithTop.coe_lt_top _)

theorem le_iff {a b : PyFloat} (numA : a ≠ nan) (numB : b ≠ nan) :
    a.le b = true ↔ a.toExt ≤ b.toExt := by
  cases a <;> cases b <;> simp_all [le, toExt]

end PyFloat

/-- A value `json.loads` returns: `None`, a bool, a number (the float `float()` makes of it), a
string, a list, or a dict with its items in order. -/
inductive JsonValue
  | null
  | bool (b : Bool)
  | num (x : PyFloat)
  | str (s : String)
  | arr (items : List JsonValue)
  | obj (fields : List (String × JsonValue))
  deriving Repr

/-- The exceptions the modelled code can raise. -/
inductive PyError
  /-- `x.get(...)` or `x.items()` on a value that is not a dict. -/
  | attributeError
  /-- Iterating a value that is not iterable; `float()` of `None`, a list or a dict. -/
  | typeError
  /-- `float()` of a string that is not a number. -/
  | valueError
  /-- `d[key]` with `key` missing. -/
  | keyError
  /-- `requests.get` failing to reach the server or timing out. -/
  | requestException
  deriving DecidableEq, Repr

/-- Code that may raise, followed by more, returns exactly when both parts do. -/
theorem except_bind_eq_ok {α β : Type} {x : Except PyError α} {f : α → Except PyError β} {b : β} :
    x >>= f = .ok b ↔ ∃ a, x = .ok a ∧ f a = .ok b := by
  cases x <;> simp [bind, Except.bind]

/-- Code that may raise, whose value is then mapped, returns exactly when the code does. -/
theorem except_map_eq_ok {α β : Type} {x : Except PyError α} {f : α → β} {b : β} :
    x.map f = .ok b ↔ ∃ a, x = .ok a ∧ f a = b := by
  cases x <;> simp [Except.map]

namespace JsonValue

/-- Python's truth value. -/
def truthy : JsonValue → Bool
  | null => false
  | bool b => b
  | num (.finite x) => x != 0
  | num _ => true
  | str s => s != ""
  | arr items => !items.isEmpty
  | obj fields => !fields.isEmpty

/-- `a or b`. -/
def orElse (a b : JsonValue) : JsonValue := if a.truthy then a else b

/-- `v == s` for a string `s`: only a string equal to it. -/
def isStr (s : String) : JsonValue → Bool
  | str t => t == s
  | _ => false

/-- `d.get(key, default)`: the value under `key`, `default` when it is missing; anything but a
dict raises `AttributeError`. -/
def getD (v : JsonValue) (key : String) (default : JsonValue) : Except PyError JsonValue :=
  match v with
  | obj fields => .ok ((fields.lookup key).getD default)
  | _ => .error .attributeError

/-- `d.get(key)`, whose default is `None`. -/
def get (v : JsonValue) (key : String) : Except PyError JsonValue := v.getD key null

/-- `d.items()`: a dict's fields in order; anything else raises `AttributeError`. -/
def items : JsonValue → Except PyError (List (String × JsonValue))
  | obj fields => .ok fields
  | _ => .error .attributeError

@[simp] theorem orElse_self (v : JsonValue) : v.orElse v = v := by
  unfold orElse; split <;> rfl

/-- `d or {}` is `d` for every dict, the empty one too. -/
@[simp] theorem obj_orElse_empty (fields : List (String × JsonValue)) :
    (obj fields).orElse (obj []) = obj fields := by
  cases fields <;> rfl

/-- `for x in v`: a list's items, a dict's keys, a string's characters; `None`, a bool or a number
is not iterable. -/
def iter : JsonValue → Except PyError (List JsonValue)
  | arr items => .ok items
  | obj fields => .ok (fields.map fun field => str field.1)
  | str s => .ok (s.toList.map fun c => str (String.singleton c))
  | _ => .error .typeError

end JsonValue

/-- The Python builtins whose results the model leaves open. -/
structure PyBuiltins where
  /-- `float(s)` of a string, `none` where it raises `ValueError`. -/
  floatOfStr : String → Option PyFloat
  /-- `str(v)` of a value that is not a string. -/
  strOf : JsonValue → String

/-- `str(v)`. -/
def PyBuiltins.str (py : PyBuiltins) : JsonValue → String
  | .str s => s
  | v => py.strOf v

/-- `float(x)`: a number as it is, a bool as `0.0` or `1.0`, a string as `float()` reads it;
anything else raises `TypeError`. -/
def pyFloat (py : PyBuiltins) : JsonValue → Except PyError PyFloat
  | .num x => .ok x
  | .bool b => .ok (.finite (if b then 1 else 0))
  | .str s =>
    match py.floatOfStr s with
    | some x => .ok x
    | none => .error .valueError
  | _ => .error .typeError

/-- `safe_float(x)`: `float(x)`, or `None` when it raises. -/
def safeFloat (py : PyBuiltins) (x : JsonValue) : Option PyFloat :=
  match pyFloat py x with
  | .ok v => some v
  | .error _ => none

end PaperTrader
