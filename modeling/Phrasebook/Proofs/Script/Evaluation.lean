import Mathlib.Data.Rat.Defs
import Phrasebook.Proofs.Keys
import Phrasebook.Script.Basic

/-!
What scripts mean. An arrow function is called with one value for each parameter; its body is an
expression, or statements of which the first return ends the call. Numbers are compared by their
exact values, and a value that is put into a text, or returned, is rendered.
-/

namespace Phrasebook

/-- The exact value of a number. -/
def Number.value : Number → Rat
  | .int n => n
  | .double x => (if x.negative then -1 else 1) * ((x.ratio.1 : Rat) / x.ratio.2)

namespace Script

/-- A value of a script. Beside the finite numbers there are the infinities and what is no number. -/
inductive Val where
  | string (value : String)
  | number (value : Number)
  | infinite (negative : Bool)
  | nan
  | bool (value : Bool)
  deriving DecidableEq, Repr

namespace Val

/-- Significant digits with the power of ten of the first one, in plain notation. -/
def plainText (digits : List Char) (leading : Int) : List Char :=
  if leading < 0 then '0' :: '.' :: List.replicate (leading.natAbs - 1) '0' ++ digits
  else digits.take (leading.toNat + 1) ++ '.' :: digits.drop (leading.toNat + 1)

/-- A double without its sign: all digits of an integer, and of any other double as few as tell it
from its neighbours. -/
def magnitudeText (x : Binary64) : List Char :=
  if x.ratio.1 % x.ratio.2 = 0 then Number.decimalDigits (x.ratio.1 / x.ratio.2)
  else
    let digits := Number.decimalDigits x.shortest.digits
    plainText (digits.reverse.dropWhile (· == '0')).reverse
      (x.shortest.exponent + (digits.length - 1 : Nat))

/-- The text of a value. -/
def render : Val → String
  | .string s => s
  | .number (.int n) => String.ofList (Number.intText n)
  | .number (.double x) => String.ofList ((if x.negative then ['-'] else []) ++ magnitudeText x)
  | .infinite negative => if negative then "-inf" else "inf"
  | .nan => "NaN"
  | .bool b => if b then "true" else "false"

/-- Whether two values are strictly equal. Values of two kinds are not, and what is no number is not
even equal to itself. -/
def strictEqual : Val → Val → Bool
  | .string s, .string t => s == t
  | .number m, .number n => m.value == n.value
  | .infinite a, .infinite b => a == b
  | .bool a, .bool b => a == b
  | _, _ => false

@[simp]
theorem strictEqual_int (m n : Int) : strictEqual (.number (.int m)) (.number (.int n)) = (m == n) := by
  simp only [strictEqual, Number.value, Bool.beq_eq_decide_eq, Rat.intCast_inj]

@[simp]
theorem strictEqual_bool (a b : Bool) : strictEqual (.bool a) (.bool b) = (a == b) := rfl

end Val

def Literal.val : Literal → Val
  | .string s => .string s
  | .number n => .number n
  | .bool b => .bool b

/-- Why there is no result. -/
inductive Failure where
  | unbound (name : String)
  | notEvaluable
  | notFunction
  | arity
  | fellThrough
  deriving DecidableEq, Repr

/-- Names with the values they are bound to. -/
abbrev Env := List (String × Val)

/-- The value of a name; of several bindings the last one counts. -/
def Env.get? (env : Env) (name : String) : Option Val :=
  (env.reverse.find? (·.1 == name)).map (·.2)

mutual

/-- The value of an expression. Functions, objects and arrays are not evaluated. -/
def Expr.eval (env : Env) : Expr → Except Failure Val
  | .ident name => match env.get? name with
    | some v => .ok v
    | none => .error (.unbound name)
  | .literal value => .ok value.val
  | .template pieces => (piecesText env pieces).map .string
  | .strictEqual left right => do
    return .bool ((← left.eval env).strictEqual (← right.eval env))
  | _ => .error .notEvaluable

/-- The pieces of a template, each value among them rendered. -/
def piecesText (env : Env) : List (Piece Expr) → Except Failure String
  | [] => .ok ""
  | .static text :: rest => do return text ++ (← piecesText env rest)
  | .dynamic value :: rest => do return (← value.eval env).render ++ (← piecesText env rest)

end

mutual

/-- What a statement returns, if it does return. -/
def Stmt.exec (env : Env) : Stmt → Except Failure (Option Val)
  | .ret value => do return some (← value.eval env)
  | .ifThen condition body => do
    if (← condition.eval env) = .bool true then execBlock env body else return none
  | .ifElse condition onTrue onFalse => do
    if (← condition.eval env) = .bool true then execBlock env onTrue else execBlock env onFalse

/-- What the first statement that returns does return. -/
def execBlock (env : Env) : List Stmt → Except Failure (Option Val)
  | [] => .ok none
  | stmt :: rest => do
    match ← stmt.exec env with
    | some v => return some v
    | none => execBlock env rest

end

/-- The parameters bound to arguments in their order. -/
def bindParams (params : List Param) (args : List Val) : Env := (params.map (·.name)).zip args

/-- The text that a function returns for arguments. -/
def Expr.call (args : List Val) : Expr → Except Failure String
  | .lambda params body =>
    if params.length = args.length then (body.eval (bindParams params args)).map Val.render
    else .error .arity
  | .procedure params body =>
    if params.length = args.length then do
      match ← execBlock (bindParams params args) body with
      | some v => return v.render
      | none => .error .fellThrough
    else .error .arity
  | _ => .error .notFunction

/-! ### Bindings -/

theorem Env.get?_of_mem {env : Env} {name : String} {v : Val} (hnames : (env.map (·.1)).Nodup)
    (h : (name, v) ∈ env) : env.get? name = some v := by
  rw [Env.get?, find?_key_reverse_of_mem hnames h]
  rfl

theorem Expr.eval_ident {env : Env} {name : String} {v : Val} (h : env.get? name = some v) :
    (Expr.ident name).eval env = .ok v := by
  rw [Expr.eval, h]

/-! ### Statements -/

section Statements

variable {env : Env} {stmt : Stmt} {e left right : Expr} {v w : Val} {b : Bool}
  {body rest onTrue onFalse : List Stmt}

theorem Expr.eval_strictEqual (hleft : left.eval env = .ok v) (hright : right.eval env = .ok w) :
    (Expr.strictEqual left right).eval env = .ok (.bool (v.strictEqual w)) := by
  rw [Expr.eval, hleft, hright]
  rfl

theorem Stmt.exec_ret (h : e.eval env = .ok v) : (Stmt.ret e).exec env = .ok (some v) := by
  rw [Stmt.exec, h]
  rfl

theorem Stmt.exec_ifThen (h : e.eval env = .ok (.bool b)) :
    (Stmt.ifThen e body).exec env = if b then execBlock env body else .ok none := by
  rw [Stmt.exec, h]
  cases b with
  | true => rfl
  | false => rfl

theorem Stmt.exec_ifElse (h : e.eval env = .ok (.bool b)) :
    (Stmt.ifElse e onTrue onFalse).exec env = execBlock env (if b then onTrue else onFalse) := by
  rw [Stmt.exec, h]
  cases b with
  | true => rfl
  | false => rfl

theorem execBlock_of_returns (h : stmt.exec env = .ok (some v)) :
    execBlock env (stmt :: rest) = .ok (some v) := by
  rw [execBlock, h]
  rfl

theorem execBlock_of_passes (h : stmt.exec env = .ok none) :
    execBlock env (stmt :: rest) = execBlock env rest := by
  rw [execBlock, h]
  rfl

end Statements

/-! ### Calls -/

section Calls

variable {params : List Param} {args : List Val} {body : Expr} {stmts : List Stmt} {v : Val}

theorem Expr.call_lambda (hlength : params.length = args.length)
    (h : body.eval (bindParams params args) = .ok v) :
    (Expr.lambda params body).call args = .ok v.render := by
  rw [Expr.call, if_pos hlength, h]
  rfl

theorem Expr.call_procedure (hlength : params.length = args.length)
    (h : execBlock (bindParams params args) stmts = .ok (some v)) :
    (Expr.procedure params stmts).call args = .ok v.render := by
  rw [Expr.call, if_pos hlength, h]
  rfl

end Calls

end Script

end Phrasebook
