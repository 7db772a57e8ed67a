import JobFile.Block.Refusal

/-!
# Open blocks

* `Context`       : the keywords of the open blocks, the innermost first;
* `Context.enter`, `Context.leave` : open and close the innermost block;
* `Context.allow` : may a stanza stand here?
-/

namespace JobFile

/-- The keywords of the open blocks, the innermost first. -/
structure Context where
  opened : List String := []
  deriving DecidableEq, Repr

namespace Context

/-- The keyword that stands for the document itself. -/
def root : String := "root"

/-- The keyword of the innermost open block. -/
def current (c : Context) : String := c.opened.headD root

/-- How many blocks are open. -/
def depth (c : Context) : Nat := c.opened.length

/-- Is no block open? -/
def isRoot (c : Context) : Bool := c.opened.isEmpty

/-- Opens a block. -/
def enter (c : Context) (keyword : String) : Context := ⟨keyword :: c.opened⟩

/-- Closes the innermost block, which has to carry the keyword. -/
def leave (c : Context) (keyword : String) : Except Breach Context :=
  match c.opened with
  | [] => .error (.underflow keyword)
  | innermost :: rest =>
    if innermost = keyword then .ok ⟨rest⟩ else .error (.outOfOrder keyword innermost)

/-- Lets a stanza pass if the innermost block is one of those allowed. -/
def allow (c : Context) (stanza : String) (allowed : List String) : Except Refusal Unit :=
  if c.current ∈ allowed then .ok () else .error (.misplaced stanza allowed)

@[simp] theorem depth_enter (c : Context) (keyword : String) :
    (c.enter keyword).depth = c.depth + 1 := rfl

@[simp] theorem current_enter (c : Context) (keyword : String) :
    (c.enter keyword).current = keyword := rfl

@[simp] theorem leave_enter (c : Context) (keyword : String) :
    (c.enter keyword).leave keyword = .ok c := by
  simp [enter, leave]

theorem allow_eq_ok_iff {c : Context} {stanza : String} {allowed : List String} :
    c.allow stanza allowed = .ok () ↔ c.current ∈ allowed := by
  unfold allow
  split <;> simp_all

end Context

end JobFile
