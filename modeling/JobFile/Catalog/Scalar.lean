import JobFile.Block.Assign

/-!
# Settings of the job itself

* `Scalar`       : the settings that stand directly in the job block;
* `Scalar.write` : sets one of them.
-/

namespace JobFile

/-- A setting of the job itself. -/
inductive Scalar where
  | allAtOnce
  | datacenters
  | namespaceName
  | priority
  | region
  | type
  deriving DecidableEq, Repr

namespace Scalar

/-- Every setting of a job. -/
def all : List Scalar := [allAtOnce, datacenters, namespaceName, priority, region, type]

theorem mem_all (s : Scalar) : s ∈ all := by cases s <;> decide

/-- The key under which a setting is written. -/
def keyword : Scalar → String
  | allAtOnce => "all_at_once"
  | datacenters => "datacenters"
  | namespaceName => "namespace"
  | priority => "priority"
  | region => "region"
  | type => "type"

/-- What a setting holds. -/
def kind : Scalar → Kind
  | allAtOnce => .flag
  | datacenters => .texts
  | priority => .integer
  | namespaceName | region | type => .text

/-- The types of jobs. -/
def types : List String := ["batch", "service", "system"]

/-- The texts that a setting may hold, if not all are allowed. -/
def choices : Scalar → Option (List String)
  | type => some types
  | _ => none

/-- A setting as a field that has to be there. -/
def field (s : Scalar) : Field :=
  { name := s.keyword, kind := s.kind, required := true, choices := s.choices }

/-- Where a setting may stand. -/
def parents : List String := ["job"]

/-- Sets a setting of the job. -/
def write (s : Scalar) (value : s.kind.Carrier) : Script :=
  .within s.keyword parents :: (s.field.check (some value) ++ s.field.assign (some value))

end Scalar

end JobFile
