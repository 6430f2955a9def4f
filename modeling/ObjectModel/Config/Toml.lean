import ObjectModel.Config.Load

/-!
The notation of settings files.

A file is a sequence of lines. A line sets a key, which may be a path with dots, or opens a table by its path
in brackets; keys that follow belong to it. Values are truth values, numbers, texts in double or single
quotes, lists in brackets and groups in braces; a number sign begins a comment. A key may be set only once.
Dates, texts over several lines and lists of tables are not part of the notation.
-/

namespace ObjectModel.Config

namespace Toml

-- ---------------------------------------------------------------------------
-- Blanks, keys and numbers
-- ---------------------------------------------------------------------------

def skipSpaces (cs : List Char) : List Char := cs.dropWhile fun c => c = ' ' || c = '\t'

def skipComment (cs : List Char) : List Char :=
  match skipSpaces cs with
  | '#' :: rest => rest.dropWhile (· ≠ '\n')
  | rest => rest

/-- What follows the end of the line, if only spaces and a comment come before it. -/
def endLine? (cs : List Char) : Option (List Char) :=
  match skipComment cs with
  | [] => some []
  | '\n' :: rest => some rest
  | '\r' :: '\n' :: rest => some rest
  | _ => none

/-- Skip spaces, comments and line ends, at most `bound` lines. -/
def skipLines : Nat → List Char → List Char
  | 0, cs => cs
  | k + 1, cs =>
    match skipComment cs, endLine? cs with
    | [], _ => []
    | _ :: _, some rest => skipLines k rest
    | shown, none => shown

def key? (cs : List Char) : Option (String × List Char) :=
  match cs with
  | '\'' :: rest =>
    match rest.dropWhile (· ≠ '\'') with
    | _ :: more => some (String.ofList (rest.takeWhile (· ≠ '\'')), more)
    | [] => none
  | '"' :: rest => quoted? rest
  | _ => Inline.key? cs

/-- Read a path of at most `bound` keys and what follows it. -/
def path? : Nat → List Char → Option (List String × List Char)
  | 0, _ => none
  | k + 1, cs =>
    match key? (skipSpaces cs) with
    | none => none
    | some (key, rest) =>
      match skipSpaces rest with
      | '.' :: more => (path? k more).map fun (keys, after) => (key :: keys, after)
      | after => some ([key], after)

/-- Digits without the underscores between them; nothing if an underscore stands elsewhere. -/
def joinDigits? (afterDigit : Bool) : List Char → Option (List Char)
  | [] => some []
  | '_' :: c :: rest =>
    if afterDigit && (hexDigitValue? c).isSome then (joinDigits? true rest).map (c :: ·) else none
  | c :: rest =>
    if c = '_' then none else (joinDigits? (hexDigitValue? c).isSome rest).map (c :: ·)

def inBase? (base : Nat) (cs : List Char) : Option Nat :=
  if cs.isEmpty then none
  else cs.foldlM (fun acc c =>
    (hexDigitValue? c).bind fun d => if d < base then some (base * acc + d) else none) 0

/-- Whether digits are the whole part of a number: nothing precedes them but a single zero. -/
def isWhole (cs : List Char) : Bool :=
  match cs with
  | [] => false
  | ['0'] => true
  | c :: _ => c ≠ '0'

def real? (cs : List Char) : Option Double :=
  let isDigit := fun c => (digitValue? c).isSome
  let fractionShown := match cs.dropWhile isDigit with
    | '.' :: c :: _ => isDigit c
    | '.' :: [] => false
    | _ => true
  if isWhole (cs.takeWhile isDigit) && fractionShown then Double.unsigned? cs else none

def number? (word : List Char) : Option Setting :=
  let signed := word.head? = some '-' || word.head? = some '+'
  let (negative, body) := splitSign word
  let lift (x : Double) : Setting := .float (if negative then x.negate else x)
  if body = "inf".toList then some (lift Double.infinity)
  else if body = "nan".toList then some (lift Double.nan)
  else match joinDigits? false body with
    | none => none
    | some digits =>
      match digits with
      | '0' :: 'x' :: hs => if signed then none else (inBase? 16 hs).map fun n => .signed n
      | '0' :: 'o' :: os => if signed then none else (inBase? 8 os).map fun n => .signed n
      | '0' :: 'b' :: bs => if signed then none else (inBase? 2 bs).map fun n => .signed n
      | _ =>
        match readNat? digits with
        | some n => if isWhole digits then some (.signed (if negative then -(n : Int) else n)) else none
        | none => (real? digits).map lift

def isWordChar (c : Char) : Bool := c.isAlphanum || c = '_' || c = '-' || c = '+' || c = '.'

-- ---------------------------------------------------------------------------
-- Setting keys
-- ---------------------------------------------------------------------------

/-- Set a path of keys that is not set yet, making the groups on the way. -/
def define? (path : List String) (s : Setting) (entries : List (String × Setting)) :
    Option (List (String × Setting)) :=
  match path with
  | [] => none
  | [k] => if (Dict.find k entries).isSome then none else some (Dict.put k s entries)
  | k :: rest =>
    match Dict.find k entries with
    | none => (define? rest s []).map fun inner => Dict.put k (.group inner) entries
    | some (.group old) => (define? rest s old).map fun inner => Dict.put k (.group inner) entries
    | some _ => none

/-- Open the table at a path: it becomes a group if there is none yet. -/
def openTable? (path : List String) (entries : List (String × Setting)) :
    Option (List (String × Setting)) :=
  match path with
  | [] => some entries
  | k :: rest =>
    match Dict.find k entries with
    | none => (openTable? rest []).map fun inner => Dict.put k (.group inner) entries
    | some (.group old) => (openTable? rest old).map fun inner => Dict.put k (.group inner) entries
    | some _ => none

-- ---------------------------------------------------------------------------
-- Values and files
-- ---------------------------------------------------------------------------

mutual

/-- Read a value and what follows it, with so much fuel. -/
def value? (fuel : Nat) (cs : List Char) : Option (Setting × List Char) :=
  match fuel with
  | 0 => none
  | n + 1 =>
    match cs with
    | '"' :: rest => (quoted? rest).map fun (s, more) => (.text s, more)
    | '\'' :: rest =>
      match rest.dropWhile fun c => c ≠ '\'' && c ≠ '\n' with
      | '\'' :: more =>
        some (.text (String.ofList (rest.takeWhile fun c => c ≠ '\'' && c ≠ '\n')), more)
      | _ => none
    | '[' :: rest => (items? n rest).map fun (ss, more) => (.list ss, more)
    | '{' :: rest =>
      match skipSpaces rest with
      | '}' :: more => some (.group [], more)
      | _ => (entries? n [] rest).map fun (es, more) => (.group es, more)
    | _ =>
      let word := cs.takeWhile isWordChar
      let rest := cs.dropWhile isWordChar
      if word = "true".toList then some (.bool true, rest)
      else if word = "false".toList then some (.bool false, rest)
      else (number? word).map fun s => (s, rest)

def items? (fuel : Nat) (cs : List Char) : Option (List Setting × List Char) :=
  match fuel with
  | 0 => none
  | n + 1 =>
    match skipLines n cs with
    | ']' :: rest => some ([], rest)
    | shown =>
      match value? n shown with
      | none => none
      | some (s, rest) =>
        match skipLines n rest with
        | ',' :: more => (items? n more).map fun (ss, after) => (s :: ss, after)
        | ']' :: more => some ([s], more)
        | _ => none

def entries? (fuel : Nat) (done : List (String × Setting)) (cs : List Char) :
    Option (List (String × Setting) × List Char) :=
  match fuel with
  | 0 => none
  | n + 1 =>
    match path? n cs with
    | some (path, '=' :: written) =>
      match value? n (skipSpaces written) with
      | none => none
      | some (s, rest) =>
        match define? path s done, skipSpaces rest with
        | some es, ',' :: more => entries? n es more
        | some es, '}' :: more => some (es, more)
        | _, _ => none
    | _ => none

end

/-- Read the lines of a file into `done`; `table` is the table that is open, `opened` those that were. -/
def lines? (fuel : Nat) (done : List (String × Setting)) (table : List String)
    (opened : List (List String)) (cs : List Char) : Option (List (String × Setting)) :=
  match fuel with
  | 0 => none
  | n + 1 =>
    match skipLines n cs with
    | [] => some done
    | '[' :: rest =>
      match path? n rest with
      | some (path, ']' :: more) =>
        if path ∈ opened then none
        else match openTable? path done, endLine? more with
          | some es, some after => lines? n es path (path :: opened) after
          | _, _ => none
      | _ => none
    | shown =>
      match path? n shown with
      | some (path, '=' :: written) =>
        match value? n (skipSpaces written) with
        | none => none
        | some (s, rest) =>
          match define? (table ++ path) s done, endLine? rest with
          | some es, some after => lines? n es table opened after
          | _, _ => none
      | _ => none

end Toml

def File.ofText (text : String) : File :=
  let cs := text.toList
  match Toml.lines? (2 * cs.length + 2) [] [] [] cs with
  | some entries => .ofSetting (.group entries)
  | none => .unreadable

end ObjectModel.Config
