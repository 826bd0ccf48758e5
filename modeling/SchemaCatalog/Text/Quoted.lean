/-!
# Quoted SQL strings

A string stands in a statement between single quotes, and a quote inside it is written
twice.
-/

namespace SchemaCatalog.Text

/-- Writes every single quote twice and all else once. -/
def doubleQuotes : List Char → List Char
  | [] => []
  | c :: cs => if c = '\'' then '\'' :: '\'' :: doubleQuotes cs else c :: doubleQuotes cs

/-- The SQL literal of a string. -/
def quote (s : String) : String :=
  String.ofList ('\'' :: (doubleQuotes s.toList ++ ['\'']))

end SchemaCatalog.Text
