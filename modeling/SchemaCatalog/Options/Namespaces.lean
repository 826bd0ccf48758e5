import SchemaCatalog.ConvertError
import SchemaCatalog.Distinct
import SchemaCatalog.OrderedMap

/-!
# From modules to namespaces

A mapping sends modules to namespaces, where `none` is the default namespace. No namespace
is the target of two entries. The empty mapping sends every module to the default namespace,
any other only the modules it lists.
-/

namespace SchemaCatalog

/-- The target namespaces of modules. -/
structure NamespaceMapping where
  /-- The target of each module. -/
  targets : OrderedMap (Option String)
  deriving DecidableEq, Inhabited

namespace NamespaceMapping

/-- The mapping with the given entries, of which the last of a module counts. -/
def ofList (entries : List (String × Option String)) : Except ConvertError NamespaceMapping :=
  match firstRepeated? (entries.map Prod.snd) with
  | some target => .error (.duplicateTarget (target.getD ""))
  | none => .ok ⟨OrderedMap.ofList entries⟩

/-- The mapping without entries. -/
def empty : NamespaceMapping := ⟨∅⟩

/-- Whether there is no entry. -/
def isEmpty (m : NamespaceMapping) : Bool := m.targets.isEmpty

/-- The namespace of a module. -/
def target (m : NamespaceMapping) (moduleName : String) : Except ConvertError (Option String) :=
  if m.isEmpty then .ok none
  else
    match m.targets.get? moduleName with
    | some t => .ok t
    | none => .error (.unmappedModule moduleName)

end NamespaceMapping

end SchemaCatalog
