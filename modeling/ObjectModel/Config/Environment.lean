import ObjectModel.Config.Inline

/-!
Settings from environment variables.

A variable counts when its name, blanks around it apart, begins with the library's own beginning, in any
case. The rest of the name is a path of keys in lower case, separated by a dot or by two underscores; a name
with an empty key does not count. The variable's value is read as an inline setting.
-/

namespace ObjectModel.Config

namespace Environment

/-- How the names of variables that count begin. -/
def opening : String := "CLASSKIT_"

def afterAnyCase? : List Char → List Char → Option (List Char)
  | [], cs => some cs
  | _ :: _, [] => none
  | x :: xs, c :: cs => if x.toLower = c.toLower then afterAnyCase? xs cs else none

/-- The keys of a name; `acc` holds in reverse what the current key has so far. -/
def keys (acc : List Char) : List Char → List String
  | [] => [String.ofList acc.reverse]
  | '_' :: '_' :: rest => String.ofList acc.reverse :: keys [] rest
  | '.' :: rest => String.ofList acc.reverse :: keys [] rest
  | c :: rest => keys (c.toLower :: acc) rest

def setting? (name value : String) : Option Setting :=
  match afterAnyCase? opening.toList (Text.trim name.toList) with
  | none => none
  | some rest =>
    let path := keys [] (Text.trim rest)
    if path.contains "" then none else some (Setting.nest path (Setting.ofText value))

/-- What all variables together set; later ones are laid over earlier ones. -/
def settings (vars : List (String × String)) : Setting :=
  vars.foldl (fun s (name, value) =>
    match setting? name value with
    | some top => s.merge top
    | none => s) (.group [])

end Environment

end ObjectModel.Config
