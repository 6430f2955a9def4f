import ObjectModel.Hook
import ObjectModel.Decimal.Double

/-!
Programs of the script language.

An expression yields values, a statement does something. Calls and the rest arguments yield any number of
values, which count only where a list of values is wanted; everywhere else an expression yields one.
-/

namespace ObjectModel.Script

inductive BinaryOp where
  /-- An arithmetic, bitwise or joining operator, by its hook. -/
  | compute (h : Hook)
  | eq | ne | lt | le | gt | ge
  | both | either
  deriving DecidableEq, Repr

inductive UnaryOp where
  | negate | length | not | complement
  deriving DecidableEq, Repr

mutual

inductive Expr where
  | nil
  | bool (b : Bool)
  | int (n : Int64)
  | float (x : Double)
  | str (bytes : ByteArray)
  | var (name : String)
  /-- The rest arguments of the enclosing function. -/
  | rest
  | function (params : List String) (variadic : Bool) (body : List Stmt)
  | table (items : List Item)
  | index (object key : Expr)
  | call (function : Expr) (args : List Expr)
  /-- Call a member of an object with the object as first argument. -/
  | send (object : Expr) (name : String) (args : List Expr)
  | unary (op : UnaryOp) (operand : Expr)
  | binary (op : BinaryOp) (left right : Expr)
  /-- The first value only. -/
  | first (e : Expr)

/-- An item of a table constructor. -/
inductive Item where
  /-- The next place of the sequence. -/
  | next (e : Expr)
  | keyed (key value : Expr)

inductive Stmt where
  | bindLocal (names : List String) (values : List Expr)
  | assign (name : String) (value : Expr)
  | store (object key value : Expr)
  | discard (e : Expr)
  | giveBack (values : List Expr)
  | branch (condition : Expr) (yes no : List Stmt)
  | count (name : String) (first last : Expr) (body : List Stmt)
  | repeatWhile (condition : Expr) (body : List Stmt)
  | raise (message : Expr)
  /-- Loop forever. -/
  | spin
  /-- Allocate and keep memory, forever. -/
  | hog
  /-- A statement that no program may contain. -/
  | malformed

end

structure Program where
  body : List Stmt

/-- Words that have a meaning of their own. -/
def reservedWords : List String :=
  ["and", "break", "do", "else", "elseif", "end", "false", "for", "function", "goto", "if", "in", "local",
    "nil", "not", "or", "repeat", "return", "then", "true", "until", "while"]

/-- Whether a word can name a variable or a member that is called: letters, digits and low lines, no digit
first, and no word that has a meaning of its own. -/
def isIdentifier (word : String) : Bool :=
  match word.toList with
  | [] => false
  | c :: cs =>
    (c.isAlpha || c = '_') && cs.all (fun d => d.isAlphanum || d = '_') && !reservedWords.contains word

mutual

/-- Whether an expression is well formed where rest arguments are available or not. -/
def Expr.wellFormed (variadic : Bool) : Expr → Bool
  | .nil | .bool _ | .int _ | .float _ | .str _ => true
  | .var name => isIdentifier name
  | .rest => variadic
  | .function params v body => params.all isIdentifier && allStmts v body
  | .table items => allItems variadic items
  | .index o k => o.wellFormed variadic && k.wellFormed variadic
  | .call f args => f.wellFormed variadic && allExprs variadic args
  | .send o name args => isIdentifier name && o.wellFormed variadic && allExprs variadic args
  | .unary _ e => e.wellFormed variadic
  | .binary _ a b => a.wellFormed variadic && b.wellFormed variadic
  | .first e => e.wellFormed variadic

def Item.wellFormed (variadic : Bool) : Item → Bool
  | .next e => e.wellFormed variadic
  | .keyed k v => k.wellFormed variadic && v.wellFormed variadic

def Stmt.wellFormed (variadic : Bool) : Stmt → Bool
  | .bindLocal names es => !names.isEmpty && names.all isIdentifier && allExprs variadic es
  | .assign name e => isIdentifier name && e.wellFormed variadic
  | .store o k v => o.wellFormed variadic && k.wellFormed variadic && v.wellFormed variadic
  | .discard e => e.wellFormed variadic
  | .giveBack es => allExprs variadic es
  | .branch c yes no => c.wellFormed variadic && allStmts variadic yes && allStmts variadic no
  | .count name a b body =>
    isIdentifier name && a.wellFormed variadic && b.wellFormed variadic && allStmts variadic body
  | .repeatWhile c body => c.wellFormed variadic && allStmts variadic body
  | .raise e => e.wellFormed variadic
  | .spin | .hog => true
  | .malformed => false

def allExprs (variadic : Bool) : List Expr → Bool
  | [] => true
  | e :: es => e.wellFormed variadic && allExprs variadic es

def allItems (variadic : Bool) : List Item → Bool
  | [] => true
  | e :: es => e.wellFormed variadic && allItems variadic es

def allStmts (variadic : Bool) : List Stmt → Bool
  | [] => true
  | s :: ss => s.wellFormed variadic && allStmts variadic ss

end

/-- Whether a program may run: nothing in it is malformed, names are identifiers, and rest arguments are used
only where a function or the main chunk has them. -/
def Program.wellFormed (p : Program) : Bool := allStmts true p.body

end ObjectModel.Script
