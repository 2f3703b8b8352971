import SyntaxQuery.Table
import SyntaxQuery.Text.Lowercase
import SyntaxQuery.Text.Basic

namespace SyntaxQuery.Grammar

open SyntaxQuery.Text

def extensionLanguages : Table String := [
  (".js", "javascript"), (".mjs", "javascript"), (".cjs", "javascript"), (".jsx", "javascript"),
  (".ts", "typescript"), (".mts", "typescript"), (".cts", "typescript"), (".tsx", "tsx"),
  (".py", "python"), (".json", "json"), (".go", "go"), (".rs", "rust"), (".rb", "ruby"),
  (".java", "java"), (".c", "c"), (".h", "c"), (".cc", "cpp"), (".cpp", "cpp"), (".hpp", "cpp"),
  (".css", "css"), (".html", "html"), (".php", "php"), (".sh", "bash")]

def afterLast (separator : Char) (cs : List Char) : List Char :=
  (cs.reverse.takeWhile (· ≠ separator)).reverse

/-- The extension of a path, from the last point of its last part on. Points that the part begins
with do not count. -/
def extension (path : String) : String :=
  let core := (afterLast '/' path.toList).dropWhile (· = '.')
  if core.contains '.' then String.ofList ('.' :: afterLast '.' core) else ""

def languageOfPath? (path : String) : Option String :=
  extensionLanguages.find? (lowercase (extension path))

def keyOf (name : String) : String :=
  replaceChar '-' '_' (lowercase name)

structure Location where
  package : String
  factory : String
deriving DecidableEq

/-- Some languages come with a package of another name, or under another function. -/
def locate (key : String) : Location :=
  match key with
  | "typescript" => ⟨"tree_sitter_typescript", "language_typescript"⟩
  | "tsx" => ⟨"tree_sitter_typescript", "language_tsx"⟩
  | "php" => ⟨"tree_sitter_php", "language_php"⟩
  | "xml" => ⟨"tree_sitter_xml", "language_xml"⟩
  | key => ⟨"tree_sitter_" ++ key, "language"⟩

end SyntaxQuery.Grammar
