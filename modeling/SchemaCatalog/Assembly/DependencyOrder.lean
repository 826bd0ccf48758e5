import SchemaCatalog.Registry

/-!
# Structs in the order of their dependencies

`dependencyOrder structs` lists every struct after the structs that it mentions, by a
depth-first search that starts from the structs in the given order. A struct that mentions
itself is no obstacle; structs that mention each other in a cycle are an error.
-/

namespace SchemaCatalog

/-- Visits a struct: lists what it mentions and then itself, unless it is listed. The structs
on the path from the start of the search are under way. The first argument bounds the length
of the path. -/
def Struct.visit (structs : List Struct) : Nat → List String → Struct → List Struct →
    Except ConvertError (List Struct)
  | 0, _, s, _ => .error (.circular s.name)
  | depth + 1, path, s, listed =>
    if listed.any fun l => l.name = s.name then .ok listed
    else if path.contains s.name then .error (.circular s.name)
    else
      let visitName (listed : List Struct) (name : String) : Except ConvertError (List Struct) :=
        if name = s.name then .ok listed
        else
          match structs.find? fun t => t.name = name with
          | some t => visit structs depth (s.name :: path) t listed
          | none => .ok listed
      (s.mentions.foldlM visitName listed).map (· ++ [s])

/-- The structs of a list, each after those that it mentions. -/
def dependencyOrder (structs : List Struct) : Except ConvertError (List Struct) :=
  structs.foldlM (fun listed s => s.visit structs (structs.length + 1) [] listed) []

end SchemaCatalog
