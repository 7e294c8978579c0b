import Phrasebook.Proofs.Script.Numeral

/-!
The grammar of scripts, read from left to right. `Script.read` takes a text as the rules of
ECMAScript and its typed parameters take it, and gives the syntax tree, in which a number stands by
its text. Commas may trail, an array may stand on one line or on many, and blanks mean nothing but
where the language forbids a line end.
-/

namespace Phrasebook.Script

mutual

/-- An expression as it is read: the text of a number is all that is known of the number. -/
inductive Tree where
  | ident (name : String)
  | string (value : String)
  | number (text : List Char)
  | bool (value : Bool)
  | lambda (params : List Param) (body : Tree)
  | procedure (params : List Param) (body : List TreeStmt)
  | object (members : List (String × Tree))
  | array (items : List Tree)
  | template (pieces : List (Piece Tree))
  | strictEqual (left right : Tree)

inductive TreeStmt where
  | ret (value : Tree)
  | ifThen (condition : Tree) (body : List TreeStmt)
  | ifElse (condition : Tree) (onTrue onFalse : List TreeStmt)

end

/-! ### Trees of expressions -/

mutual

/-- The tree that an expression stands for. -/
def Expr.tree : Expr → Tree
  | .ident name => .ident name
  | .literal (.string value) => .string value
  | .literal (.number value) => .number value.text
  | .literal (.bool value) => .bool value
  | .lambda params body => .lambda params body.tree
  | .procedure params body => .procedure params (stmtTrees body)
  | .object members => .object (memberTrees members)
  | .array items => .array (itemTrees items)
  | .template pieces => .template (pieceTrees pieces)
  | .strictEqual left right => .strictEqual left.tree right.tree

def memberTrees : List (String × Expr) → List (String × Tree)
  | [] => []
  | (key, value) :: rest => (key, value.tree) :: memberTrees rest

def itemTrees : List Expr → List Tree
  | [] => []
  | item :: rest => item.tree :: itemTrees rest

def pieceTrees : List (Piece Expr) → List (Piece Tree)
  | [] => []
  | .static text :: rest => .static text :: pieceTrees rest
  | .dynamic value :: rest => .dynamic value.tree :: pieceTrees rest

/-- The tree that a statement stands for. -/
def Stmt.tree : Stmt → TreeStmt
  | .ret value => .ret value.tree
  | .ifThen condition body => .ifThen condition.tree (stmtTrees body)
  | .ifElse condition onTrue onFalse => .ifElse condition.tree (stmtTrees onTrue) (stmtTrees onFalse)

def stmtTrees : List Stmt → List TreeStmt
  | [] => []
  | stmt :: rest => stmt.tree :: stmtTrees rest

end

namespace Reader

/-! ### Lists -/

/-- Items with commas between them, up to a closing mark; a comma may trail. The size bounds the
number of items. -/
def commaList (close : List Char) (item : Reader α) : Nat → Reader (List α)
  | 0 => failure
  | size + 1 => do
    if ← accept close then return []
    else
      let head ← item
      if ← accept [','] then return head :: (← commaList close item size)
      else
        symbol close
        return [head]

/-- The pieces of a template literal, after its opening mark. No static piece is empty. -/
def pieces (expr : Reader Tree) : Nat → Reader (List (Piece Tree))
  | 0 => failure
  | size + 1 => do
    let (text, mark) ← quoted .template
    let static := if text.isEmpty then [] else [Piece.static text]
    match mark with
    | .close => return static
    | .substitution =>
      let value ← expr
      symbol ['\x7d']
      return static ++ .dynamic value :: (← pieces expr size)

/-- The statements of a block, after its opening brace. -/
def block (stmt : Reader TreeStmt) : Nat → Reader (List TreeStmt)
  | 0 => failure
  | size + 1 => do
    if ← accept ['\x7d'] then return []
    else return (← stmt) :: (← block stmt size)

/-! ### Expressions -/

def string : Reader String := do
  symbol ['"']
  let (text, _) ← quoted .string
  return text

/-- A property name: a word of any kind, or a string literal. -/
def propertyKey : Reader String := do
  if (← peek) = some '"' then string else word

def member (expr : Reader Tree) : Reader (String × Tree) := do
  let key ← propertyKey
  symbol [':']
  return (key, ← expr)

def param : Reader Param := do
  let name ← identifier
  symbol [':']
  return ⟨name, ← typeName⟩

/-- A word that is an expression by itself. -/
def wordExpr : Reader Tree := do
  let name ← word
  if name = "true" then return .bool true
  else if name = "false" then return .bool false
  else if name ∈ keywords then failure
  else return .ident name

/-- An expression that can be compared with another one. -/
def primary (expr : Reader Tree) (size : Nat) : Reader Tree := do
  let start ← peek
  if start = some '"' then return .string (← string)
  else if start = some '\x60' then
    symbol ['\x60']
    return .template (← pieces expr size)
  else if start = some '\x7b' then
    symbol ['\x7b']
    return .object (← commaList ['\x7d'] (member expr) size)
  else if start = some '[' then
    symbol ['[']
    return .array (← commaList [']'] expr size)
  else if start = some '-' ∨ start.any Char.isDigit then return .number (← number)
  else wordExpr

/-- An arrow function. A brace after the arrow opens a block, not an object. -/
def arrow (expr : Reader Tree) (stmt : Reader TreeStmt) (size : Nat) : Reader Tree := do
  symbol ['(']
  let params ← commaList [')'] param size
  sameLine
  symbol ['=', '>']
  if ← accept ['\x7b'] then return .procedure params (← block stmt size)
  else return .lambda params (← expr)

def statement (expr : Reader Tree) (stmt : Reader TreeStmt) (size : Nat) : Reader TreeStmt := do
  let start ← word
  if start = "return" then
    sameLine
    let value ← expr
    symbol [';']
    return .ret value
  else if start = "if" then
    symbol ['(']
    let condition ← expr
    symbol [')']
    symbol ['\x7b']
    let onTrue ← block stmt size
    if ← acceptWord "else" then
      symbol ['\x7b']
      return .ifElse condition onTrue (← block stmt size)
    else return .ifThen condition onTrue
  else failure

mutual

/-- An expression; the size bounds how deep it is nested. -/
def expr : Nat → Reader Tree
  | 0 => failure
  | size + 1 => do
    if (← peek) = some '(' then arrow (expr size) (stmt size) size
    else
      let left ← primary (expr size) size
      if ← accept ['=', '=', '='] then return .strictEqual left (← primary (expr size) size)
      else return left

/-- A statement; the size bounds how deep it is nested. -/
def stmt : Nat → Reader TreeStmt
  | 0 => failure
  | size + 1 => statement (expr size) (stmt size) size

end

end Reader

/-- The tree of a text that is one expression from end to end. Nothing in a text is nested deeper
than the text is long. -/
def read (text : String) : Option Tree := do
  let (tree, rest) ← Reader.expr text.toList.length text.toList
  if skip rest = [] then return tree else none

end Phrasebook.Script
