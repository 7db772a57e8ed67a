import JobFile.Block.Action

/-!
# Traces

* `Mark`            : where the document stood after a labelled step;
* `Script.trace`    : the marks of the steps of a script, in the order in which they ended;
* `Script.document` : what a script writes from the start.

A step leaves its mark after those of the steps inside it, whether it failed or not.  A breach
leaves none, neither for its step nor for those around it.
-/

namespace JobFile

/-- Where the document stood after a labelled step. -/
structure Mark where
  label : String
  indent : Nat
  current : String
  depth : Nat
  failed : Option Refusal

/-- The mark of a step with the given outcome. -/
def Mark.of? (label : String) : Outcome → Option Mark
  | .done d => some ⟨label, d.indent, d.context.current, d.context.depth, none⟩
  | .failed d why => some ⟨label, d.indent, d.context.current, d.context.depth, some why⟩
  | .breached _ => none

mutual
/-- The marks that an action leaves. -/
def Action.trace : Action → Draft → List Mark
  | .step label _ body, d => Script.trace body d ++ (Mark.of? label (Script.run body d)).toList
  | .block keyword name body, d =>
    match d.startBlock keyword name with
    | .ok d => Script.trace body d
    | .error _ => []
  | _, _ => []
/-- The marks that the steps of a script leave, up to the first failure. -/
def Script.trace : List Action → Draft → List Mark
  | [], _ => []
  | a :: as, d =>
    a.trace d ++ match a.run d with
      | .done d => Script.trace as d
      | _ => []
end

/-- Why there is no document. -/
inductive Failure where
  | refused (why : Refusal)
  | breached (why : Breach)

/-- The document that a script writes from the start. -/
def Script.document (s : Script) : Except Failure String :=
  match Script.run s {} with
  | .done d => d.finish.mapError Failure.breached
  | .failed _ why => .error (.refused why)
  | .breached why => .error (.breached why)

end JobFile
