import JobFile.Catalog.Credentials
import JobFile.Catalog.Scalar

/-!
# The words of a description

* `Keyword`        : everything that a node can stand for;
* `Keyword.ofText?` : what a word stands for.
-/

namespace JobFile

/-- What a node of a description can stand for. -/
inductive Keyword where
  | scalar (s : Scalar)
  | job
  | block (s : Stanza)
  | textMap (m : TextMap)
  | config
  | header
  | package
  | credentials (c : Credentials)
  deriving DecidableEq, Repr

namespace Keyword

/-- Everything that a node can stand for. -/
def all : List Keyword :=
  Scalar.all.map scalar ++ [job] ++ Stanza.all.map block ++ TextMap.all.map textMap
    ++ [config, header, package] ++ Credentials.all.map credentials

/-- The word for it. -/
def word : Keyword → String
  | scalar s => s.keyword
  | job => "job"
  | block s => s.keyword
  | textMap m => m.keyword
  | config => Config.keyword
  | header => Header.keyword
  | package => "package"
  | credentials c => c.keyword

/-- What a word stands for. -/
def ofText? (s : String) : Option Keyword := all.find? (·.word == s)

theorem mem_all (k : Keyword) : k ∈ all := by
  cases k <;> simp [all, Scalar.mem_all, Stanza.mem_all, TextMap.mem_all, Credentials.mem_all]

end Keyword

end JobFile
