import ObjectModel.Registry.Scope
import ObjectModel.Registry.Reference
import ObjectModel.Text.Quoted

/-!
Descriptions of entities for diagnostics.

A class or trait is described by its own definition, with references by their labels and nothing resolved;
a namespace by its path and the names of its children.
-/

namespace ObjectModel

namespace Registry

def describe (r : Registry) : Entity → String
  | .cls c =>
    let d := r.classDef c
    let parent := match d.parent with
      | none => "None"
      | some ref => "Some(" ++ Text.quoted (r.label ref) ++ ")"
    "Class \x7b name: " ++ Text.quoted d.name ++ ", constructors: " ++ toString d.constructors.length
      ++ ", parent: " ++ parent ++ ", traits: " ++ Text.quotedList (d.traits.map r.label) ++ ", .. \x7d"
  | .trait t =>
    let d := r.traitDef t
    "Trait \x7b name: " ++ Text.quoted d.name ++ ", traits: "
      ++ Text.quotedList (d.traits.map r.label) ++ ", .. \x7d"
  | .space n =>
    "Namespace \x7b path: " ++ Text.quoted (r.path n) ++ ", children: "
      ++ Text.quotedList (r.childNames n) ++ " \x7d"

end Registry

end ObjectModel
