import JobFile.Catalog.Write

/-!
# Credentials

* `Credentials.text`  : a template that reads credentials from the vault into an environment file;
* `Credentials.write` : the template block that holds it.

A file that is read by a shell exports what it sets.  A file that is loaded before the task starts
does not need to.
-/

namespace JobFile

/-- The stores whose credentials the vault hands out. -/
inductive Store where
  | aws
  | consul
  deriving DecidableEq, Repr

/-- Credentials of a store, loaded before the task starts or left to it. -/
structure Credentials where
  store : Store
  preloaded : Bool
  deriving DecidableEq, Repr

/-- An expression of the template language. -/
def expression (s : String) : String := "\x7b\x7b" ++ s ++ "\x7d\x7d"

namespace Store

/-- The word for a store. -/
def word : Store → String
  | aws => "aws"
  | consul => "consul"

/-- The lines that set the variables of a store, each after the given text. -/
def assignments (lead : String) : Store → List String
  | aws =>
    [lead ++ "AWS_ACCESS_KEY_ID=" ++ expression ".Data.access_key",
      lead ++ "AWS_SECRET_ACCESS_KEY=" ++ expression ".Data.secret_key",
      expression "if .Data.security_token",
      lead ++ "AWS_SESSION_TOKEN=" ++ expression ".Data.security_token",
      expression "end"]
  | consul => [lead ++ "CONSUL_HTTP_TOKEN=" ++ expression ".Data.token"]

/-- The template that reads the credentials of a store from the vault. -/
def template (s : Store) (paths : List String) (exported : Bool) : String :=
  let opening := expression ("with secret " ++ String.intercalate " " (paths.map Text.quote))
  let lead := if exported then "export " else ""
  String.join ((opening :: (s.assignments lead ++ [expression "end"])).map (· ++ "\n"))

end Store

namespace Credentials

/-- Credentials of every kind. -/
def all : List Credentials :=
  [⟨.aws, false⟩, ⟨.aws, true⟩, ⟨.consul, false⟩, ⟨.consul, true⟩]

theorem mem_all (c : Credentials) : c ∈ all := by
  obtain ⟨store, preloaded⟩ := c
  cases store <;> cases preloaded <;> decide

/-- The keyword for credentials. -/
def keyword (c : Credentials) : String :=
  (if c.preloaded then "preloaded_" else "") ++ "vault_" ++ c.store.word ++ "_creds"

/-- The template that holds the credentials under the given name. -/
def settings (c : Credentials) (name : String) (paths : List String) : Stanza.template.Settings :=
  .cons none (.cons none
    (.cons (some (c.store.template paths (!c.preloaded)))
      (.cons (some ("secrets/" ++ name ++ ".env"))
        (.cons (if c.preloaded then some true else none)
          (.cons none (.cons none (.cons none (.cons none (.cons none (.cons none .nil))))))))))

/-- Writes the template block that holds the credentials. -/
def write (c : Credentials) (name : String) (paths : List String) : Script :=
  Stanza.template.write () (c.settings name paths)

end Credentials

end JobFile
