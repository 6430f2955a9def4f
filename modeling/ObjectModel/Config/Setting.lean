import ObjectModel.Decimal.Layout
import ObjectModel.Dict
import ObjectModel.Text.Quoted

/-!
Settings as they are written.

A `Setting` is a value from any source of configuration before it is read as what it is wanted for. Merging
lays one setting over another: groups are merged key by key, and anything else is replaced.
-/

namespace ObjectModel.Config

/-- A value from a source of configuration. -/
inductive Setting where
  | bool (b : Bool)
  | signed (n : Int)
  | unsigned (n : Nat)
  | float (x : Double)
  | text (s : String)
  | list (items : List Setting)
  | group (entries : List (String × Setting))
  deriving Inhabited

namespace Setting

mutual

/-- Lay the second setting over the first. -/
def merge (base : Setting) : Setting → Setting
  | .group entries =>
    match base with
    | .group old => .group (mergeEntries old entries)
    | _ => .group entries
  | top => top

def mergeEntries (old : List (String × Setting)) : List (String × Setting) → List (String × Setting)
  | [] => old
  | (k, s) :: rest =>
    let merged := match Dict.find k old with
      | some under => merge under s
      | none => s
    mergeEntries (Dict.put k merged old) rest

end

/-- A setting at the end of a path of keys. -/
def nest (path : List String) (s : Setting) : Setting :=
  path.foldr (fun k inner => .group [(k, inner)]) s

mutual

/-- Whether a setting may stand in a settings file, whose integers have 64 bits. -/
def isStorable : Setting → Bool
  | .signed n => decide (Int64.minValue.toInt ≤ n ∧ n ≤ Int64.maxValue.toInt)
  | .list items => allStorable items
  | .group entries => entriesStorable entries
  | _ => true

def allStorable : List Setting → Bool
  | [] => true
  | s :: rest => s.isStorable && allStorable rest

def entriesStorable : List (String × Setting) → Bool
  | [] => true
  | (_, s) :: rest => s.isStorable && entriesStorable rest

end

def describe : Setting → String
  | .bool b => "bool " ++ (if b then "true" else "false")
  | .signed n => "signed int \x60" ++ toString n ++ "\x60"
  | .unsigned n => "unsigned int \x60" ++ NumberLayout.natText n ++ "\x60"
  | .float x => "float \x60" ++ NumberLayout.plain.write x ++ "\x60"
  | .text s => "string " ++ Text.quoted s
  | .list _ => "sequence"
  | .group _ => "map"

end Setting

end ObjectModel.Config
