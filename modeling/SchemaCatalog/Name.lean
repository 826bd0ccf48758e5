/-!
# Names of catalog objects

A catalog object has a local name, perhaps a namespace, and a **style** that says how the
two are written together: `ns.name` when qualified, `ns__name` when the namespace is folded
into the local name. `compact` is the written form, `stem` the form that derived names
(constraints, join tables) start with.
-/

namespace SchemaCatalog

/-- How a namespace is attached to an object name. -/
inductive NameStyle where
  /-- Namespace and local name are kept apart: `ns.name`. -/
  | qualified
  /-- The namespace is folded into the local name: `ns__name`. -/
  | prefixed
  deriving DecidableEq, Repr, Inhabited

namespace NameStyle

/-- The written form of a style. -/
def toText : NameStyle → String
  | qualified => "qualified"
  | prefixed => "prefixed"

/-- Reads a style from its written form. -/
def ofText? : String → Option NameStyle
  | "qualified" => some qualified
  | "prefixed" => some prefixed
  | _ => none

/-- The place of a style in the order of styles. -/
def rank : NameStyle → Nat
  | qualified => 0
  | prefixed => 1

end NameStyle

/-- The name of a table, composite or enumeration type. -/
structure QualifiedName where
  /-- The owning namespace; `none` is the default namespace. -/
  namespaceName : Option String
  /-- The name within the namespace. -/
  name : String
  /-- How the two are written together. -/
  style : NameStyle
  deriving DecidableEq, Repr, Inhabited

namespace QualifiedName

/-- A name in the default namespace. -/
def global (name : String) : QualifiedName := ⟨none, name, .qualified⟩

/-- The namespace in which the object is placed: a prefixed name always stands in the
default namespace. -/
def schema (n : QualifiedName) : Option String :=
  match n.style with
  | .qualified => n.namespaceName
  | .prefixed => none

/-- The name within `schema`. -/
def localName (n : QualifiedName) : String :=
  match n.style, n.namespaceName with
  | .prefixed, some ns => ns ++ "__" ++ n.name
  | _, _ => n.name

/-- The name as one unquoted identifier. -/
def compact (n : QualifiedName) : String :=
  match n.style, n.namespaceName with
  | .qualified, some ns => ns ++ "." ++ n.name
  | _, _ => n.localName

/-- Replaces every dot of a text by an underscore. -/
def underscored (s : String) : String := s.map fun c => if c = '.' then '_' else c

/-- The identifier that derived names start with: the compact form without dots. -/
def stem (n : QualifiedName) : String := underscored n.compact

/-! ### Order -/

/-- The order of optional namespaces: the default namespace comes first. -/
def compareNamespaces : Option String → Option String → Ordering
  | none, none => .eq
  | none, some _ => .lt
  | some _, none => .gt
  | some a, some b => compare a b

/-- Names are ordered by namespace, then by name, then by style. -/
protected def compare (m n : QualifiedName) : Ordering :=
  (compareNamespaces m.namespaceName n.namespaceName).then
    ((compare m.name n.name).then (compare m.style.rank n.style.rank))

/-- Whether one name stands before another, or is equal to it. -/
def isBefore (m n : QualifiedName) : Bool := (m.compare n).isLE

/-- The names of a list in order, each once. -/
def sorted (ns : List QualifiedName) : List QualifiedName :=
  (ns.mergeSort isBefore).eraseReps

end QualifiedName

end SchemaCatalog
