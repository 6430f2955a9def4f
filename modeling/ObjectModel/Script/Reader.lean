import ObjectModel.Script.Datum
import ObjectModel.Script.Program

/-!
Reading programs from nested data.

An array whose first item is a word is an expression or statement of that form; other data are constants.
`Program.ofDatum?` reads a program from the array of its statements, and refuses anything that is not one.
-/

namespace ObjectModel.Script

/-- The operator that a word means between two operands. -/
def binaryOp? (word : String) : Option BinaryOp :=
  match word with
  | "+" => some (.compute .add)
  | "-" => some (.compute .sub)
  | "*" => some (.compute .mul)
  | "/" => some (.compute .div)
  | "//" => some (.compute .idiv)
  | "%" => some (.compute .mod)
  | "^" => some (.compute .pow)
  | "&" => some (.compute .band)
  | "|" => some (.compute .bor)
  | "~" => some (.compute .bxor)
  | "<<" => some (.compute .shl)
  | ">>" => some (.compute .shr)
  | ".." => some (.compute .concat)
  | "==" => some .eq
  | "~=" => some .ne
  | "<" => some .lt
  | "<=" => some .le
  | ">" => some .gt
  | ">=" => some .ge
  | "and" => some .both
  | "or" => some .either
  | _ => none

/-- The operator that a word means before one operand. -/
def unaryOp? (word : String) : Option UnaryOp :=
  match word with
  | "neg" => some .negate
  | "len" => some .length
  | "not" => some .not
  | "bnot" => some .complement
  | _ => none

def texts? : List Datum → Option (List String)
  | [] => some []
  | .text s :: rest => (texts? rest).map (s :: ·)
  | _ => none

/-- The bytes of a text of hexadecimal digits. -/
def hexBytes? : List Char → Option (List UInt8)
  | [] => some []
  | a :: b :: rest =>
    match hexDigitValue? a, hexDigitValue? b, hexBytes? rest with
    | some x, some y, some more => some ((16 * x + y).toUInt8 :: more)
    | _, _, _ => none
  | _ => none

def int64? (n : Int) : Option Int64 :=
  if Int64.minValue.toInt ≤ n ∧ n ≤ Int64.maxValue.toInt then some (Int64.ofInt n) else none

/-- Parameter names, and whether the last of them stands for rest arguments. -/
def params (names : List String) : List String × Bool :=
  if names.getLast? = some "..." then (names.dropLast, true) else (names, false)

mutual

def Expr.ofDatum? : Datum → Option Expr
  | .null => some .nil
  | .bool b => some (.bool b)
  | .int n => (int64? n).map .int
  | .text s => some (.str s.toUTF8)
  | .array [] => none
  | .array [.text "..."] => some .rest
  | .array [.text "f", .text s] => (Double.ofText? s).map .float
  | .array [.text "b", .text s] => (hexBytes? s.toList).map fun bs => .str ⟨bs.toArray⟩
  | .array [.text "v", .text name] => some (.var name)
  | .array [.text "fn", .array names, .array body] => do
    let (ps, variadic) := params (← texts? names)
    return .function ps variadic (← stmts? body)
  | .array (.text "tbl" :: items) => (items? items).map .table
  | .array [.text "get", o, k] => do
    return .index (← Expr.ofDatum? o) (← Expr.ofDatum? k)
  | .array (.text "call" :: f :: args) => do
    return .call (← Expr.ofDatum? f) (← exprs? args)
  | .array (.text "send" :: o :: .text name :: args) => do
    return .send (← Expr.ofDatum? o) name (← exprs? args)
  | .array [.text "one", e] => (Expr.ofDatum? e).map .first
  | .array [.text word, a] => do
    return .unary (← unaryOp? word) (← Expr.ofDatum? a)
  | .array [.text word, a, b] => do
    return .binary (← binaryOp? word) (← Expr.ofDatum? a) (← Expr.ofDatum? b)
  | .array _ => none

def Item.ofDatum? : Datum → Option Item
  | .array [.text "=", k, v] => do
    return .keyed (← Expr.ofDatum? k) (← Expr.ofDatum? v)
  | .null => some (.next .nil)
  | .bool b => some (.next (.bool b))
  | .int n => (int64? n).map fun m => .next (.int m)
  | .text s => some (.next (.str s.toUTF8))
  | .array items => (Expr.ofDatum? (.array items)).map .next

def Stmt.ofDatum? : Datum → Option Stmt
  | .array (.text "local" :: .array names :: values) => do
    return .bindLocal (← texts? names) (← exprs? values)
  | .array [.text "set", .text name, e] => (Expr.ofDatum? e).map (.assign name)
  | .array [.text "put", o, k, v] => do
    return .store (← Expr.ofDatum? o) (← Expr.ofDatum? k) (← Expr.ofDatum? v)
  | .array [.text "do", e] => (Expr.ofDatum? e).map .discard
  | .array (.text "return" :: values) => (exprs? values).map .giveBack
  | .array [.text "if", c, .array yes] => do
    return .branch (← Expr.ofDatum? c) (← stmts? yes) []
  | .array [.text "if", c, .array yes, .array no] => do
    return .branch (← Expr.ofDatum? c) (← stmts? yes) (← stmts? no)
  | .array [.text "for", .text name, a, b, .array body] => do
    return .count name (← Expr.ofDatum? a) (← Expr.ofDatum? b) (← stmts? body)
  | .array [.text "while", c, .array body] => do
    return .repeatWhile (← Expr.ofDatum? c) (← stmts? body)
  | .array [.text "error", e] => (Expr.ofDatum? e).map .raise
  | .array [.text "spin"] => some .spin
  | .array [.text "hog"] => some .hog
  | .array [.text "syntax_error"] => some .malformed
  | _ => none

def exprs? : List Datum → Option (List Expr)
  | [] => some []
  | d :: rest => do return (← Expr.ofDatum? d) :: (← exprs? rest)

def items? : List Datum → Option (List Item)
  | [] => some []
  | d :: rest => do return (← Item.ofDatum? d) :: (← items? rest)

def stmts? : List Datum → Option (List Stmt)
  | [] => some []
  | d :: rest => do return (← Stmt.ofDatum? d) :: (← stmts? rest)

end

/-- Read a program from the array of its statements. -/
def Program.ofDatum? : Datum → Option Program
  | .array body => (stmts? body).map Program.mk
  | _ => none

def Program.read? (s : String) : Option Program := (Datum.read? s).bind Program.ofDatum?

end ObjectModel.Script
