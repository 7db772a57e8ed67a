import JobFile.Block.Draft

/-!
# Scripts

* `Action`, `Script`  : what is to be written and checked, step by step;
* `Action.run`        : carries an action out;
* `Outcome`           : how that ends;
* `Script.run_append` : scripts in a row.

A failing action ends its script and every script around it.  The blocks on the way out are still
closed, and what has been written stays.  Only a step that is marked as caught holds a failure
back.
-/

namespace JobFile

/-- One step of writing a document. -/
inductive Action where
  /-- A line at the current indentation. -/
  | line (text : String)
  /-- A text as it is. -/
  | raw (text : String)
  /-- Opens a block and leaves it open. -/
  | startBlock (keyword : String) (name : Option String)
  /-- Closes the innermost block. -/
  | endBlock (keyword : String)
  /-- A whole block with what stands in it. -/
  | block (keyword : String) (name : Option String) (body : List Action)
  /-- Fails unless the innermost open block is one of those allowed. -/
  | within (stanza : String) (allowed : List String)
  /-- Fails because the innermost open block lacks a value. -/
  | lacking (key : String)
  /-- Fails. -/
  | fail (why : Refusal)
  /-- A script under a label.  If it is caught, its failure ends nothing else. -/
  | step (label : String) (caught : Bool) (body : List Action)

/-- Steps in a row. -/
abbrev Script := List Action

/-- How writing ends. -/
inductive Outcome where
  | done (d : Draft)
  | failed (d : Draft) (why : Refusal)
  | breached (why : Breach)

namespace Outcome

/-- Goes on if all went well so far. -/
def andThen (o : Outcome) (next : Draft → Outcome) : Outcome :=
  match o with
  | .done d => next d
  | o => o

/-- The end of something that cannot fail. -/
def ofBreach : Except Breach Draft → Outcome
  | .ok d => .done d
  | .error why => .breached why

/-- Closes a block, after a failure too. -/
def closing (keyword : String) : Outcome → Outcome
  | .done d => ofBreach (d.endBlock keyword)
  | .failed d why =>
    match d.endBlock keyword with
    | .ok d => .failed d why
    | .error breach => .breached breach
  | .breached why => .breached why

/-- Holds a failure back if asked to. -/
def caughtIf (caught : Bool) : Outcome → Outcome
  | .failed d why => if caught then .done d else .failed d why
  | o => o

end Outcome

mutual
/-- Carries an action out. -/
def Action.run : Action → Draft → Outcome
  | .line text, d => .ofBreach (d.line text)
  | .raw text, d => .done (d.raw text)
  | .startBlock keyword name, d => .ofBreach (d.startBlock keyword name)
  | .endBlock keyword, d => .ofBreach (d.endBlock keyword)
  | .block keyword name body, d =>
    (Outcome.ofBreach (d.startBlock keyword name)).andThen fun d =>
      (Script.run body d).closing keyword
  | .within stanza allowed, d =>
    match d.context.allow stanza allowed with
    | .ok () => .done d
    | .error why => .failed d why
  | .lacking key, d => .failed d (.missingValue d.context.current key)
  | .fail why, d => .failed d why
  | .step _ caught body, d => (Script.run body d).caughtIf caught
/-- Carries the steps of a script out, up to the first failure. -/
def Script.run : List Action → Draft → Outcome
  | [], d => .done d
  | a :: as, d => (a.run d).andThen fun d => Script.run as d
end

@[simp] theorem Outcome.andThen_done (o : Outcome) : o.andThen .done = o := by
  cases o <;> rfl

theorem Outcome.andThen_assoc (o : Outcome) (f g : Draft → Outcome) :
    (o.andThen f).andThen g = o.andThen fun d => (f d).andThen g := by
  cases o <;> rfl

/-- Two scripts in a row go on only if the first one ends well. -/
theorem Script.run_append (s t : Script) (d : Draft) :
    Script.run (s ++ t) d = (Script.run s d).andThen (Script.run t) := by
  induction s generalizing d with
  | nil => rfl
  | cons a s ih => simp only [List.cons_append, Script.run, Outcome.andThen_assoc, ih]

/-- A script that may fail before its first step. -/
def Script.ofExcept : Except Refusal Script → Script
  | .ok s => s
  | .error why => [.fail why]

end JobFile
