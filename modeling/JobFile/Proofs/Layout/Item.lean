import JobFile.Block.Action

/-!
# Items

* `Item`            : what has been added to a document: lines, texts, and blocks of items;
* `Item.print`      : the text of items, which only depends on their place in the tree;
* `Item.Inside`     : an item stands among others, at any depth;
* `Draft.Aligned`   : the indentation follows the number of open blocks;
* `Draft.add`       : a draft with items printed at its end;
* `Draft.line_eq_add`, `Draft.raw_eq_add`, `Draft.endBlock_opened` : what the operations of a
  draft add to it.

A block is set off by an empty line unless it comes first in the block around it.  A draft knows
this from a flag, and printing from the items before it.
-/

namespace JobFile

/-- What a script adds to a document. -/
inductive Item where
  | line (text : String)
  | raw (text : String)
  | block (keyword : String) (name : Option String) (items : List Item)

namespace Item

/-- The empty line before a block that does not come first. -/
def separator (first : Bool) : String := if first then "" else "\n"

mutual
/-- The text of an item inside the given number of blocks, when it comes first or not. -/
def print (depth : Nat) (first : Bool) : Item → String
  | .line text => indentation depth ++ text ++ "\n"
  | .raw text => text
  | .block keyword name items =>
    separator first ++ (indentation depth ++ headerLine keyword name "\x7b" ++ "\n")
      ++ printAll (depth + 1) true items ++ (indentation depth ++ "\x7d" ++ "\n")
/-- The text of items in a row.  All but the first of them have something before them. -/
def printAll (depth : Nat) (first : Bool) : List Item → String
  | [] => ""
  | i :: is => i.print depth first ++ printAll depth false is
end

theorem printAll_singleton (depth : Nat) (first : Bool) (i : Item) :
    printAll depth first [i] = i.print depth first := by
  simp only [printAll, String.append_empty]

theorem printAll_append (depth : Nat) (first : Bool) (xs ys : List Item) :
    printAll depth first (xs ++ ys) =
      printAll depth first xs ++ printAll depth (first && xs.isEmpty) ys := by
  induction xs generalizing first with
  | nil => simp [printAll]
  | cons x xs ih =>
    simp only [List.cons_append, printAll]
    rw [ih, String.append_assoc]
    simp

/-- An item stands among the given ones, or inside a block of them. -/
inductive Inside (i : Item) : List Item → Prop
  | among {is : List Item} (h : i ∈ is) : Inside i is
  | block {is items : List Item} {keyword : String} {name : Option String}
    (hblock : .block keyword name items ∈ is) (h : Inside i items) : Inside i is

theorem Inside.mono {i : Item} {xs ys : List Item} (h : Inside i xs) (hsub : xs ⊆ ys) :
    Inside i ys := by
  cases h with
  | among h => exact .among (hsub h)
  | block hblock h => exact .block (hsub hblock) h

theorem printed_of_mem {i : Item} {is : List Item} (h : i ∈ is) (depth : Nat) (first : Bool) :
    ∃ f lead trail, printAll depth first is = lead ++ i.print depth f ++ trail := by
  obtain ⟨before, after, rfl⟩ := List.append_of_mem h
  refine ⟨first && before.isEmpty, printAll depth first before, printAll depth false after, ?_⟩
  rw [printAll_append, printAll, String.append_assoc]

/-- The text of an item stands in the text of the items among which it stands. -/
theorem Inside.printed {i : Item} {is : List Item} (h : Inside i is) (depth : Nat)
    (first : Bool) :
    ∃ k f lead trail, printAll depth first is = lead ++ i.print k f ++ trail := by
  induction h generalizing depth first with
  | among h => exact ⟨depth, printed_of_mem h depth first⟩
  | @block is items keyword name hblock h ih =>
    obtain ⟨f, lead, trail, hprint⟩ := printed_of_mem hblock depth first
    obtain ⟨k, f', lead', trail', hinside⟩ := ih (depth + 1) true
    refine ⟨k, f', lead ++ (separator f
      ++ (indentation depth ++ headerLine keyword name "\x7b" ++ "\n") ++ lead'),
      trail' ++ (indentation depth ++ "\x7d" ++ "\n") ++ trail, ?_⟩
    rw [hprint, print, hinside]
    simp only [String.append_assoc]

end Item

namespace Draft

/-- The indentation follows the number of open blocks. -/
def Aligned (d : Draft) : Prop := d.indent = d.context.depth

/-- A draft with items added to its innermost block. -/
def add (d : Draft) (items : List Item) : Draft :=
  { d with
    text := d.text ++ Item.printAll d.indent d.first items
    first := d.first && items.isEmpty }

@[simp] theorem add_nil (d : Draft) : d.add [] = d := by
  simp [add, Item.printAll]

@[simp] theorem add_add (d : Draft) (xs ys : List Item) : (d.add xs).add ys = d.add (xs ++ ys) := by
  simp only [add, Item.printAll_append, String.append_assoc, Bool.and_assoc]
  congr 1
  cases xs <;> simp

theorem Aligned.add {d : Draft} (h : d.Aligned) (items : List Item) : (d.add items).Aligned := h

/-! ## The operations of a draft -/

theorem line_eq_add {d : Draft} (h : d.Aligned) (text : String) :
    d.line text = .ok (d.add [.line text]) := by
  have hd : d.indent = d.context.depth := h
  simp [line, hd, add, Item.printAll, Item.print]

theorem raw_eq_add (d : Draft) (text : String) : d.raw text = d.add [.raw text] := by
  simp [raw, add, Item.printAll, Item.print]

/-- A draft in which a block has just been opened. -/
def opened (d : Draft) (keyword : String) (name : Option String) : Draft where
  text := d.text ++ (Item.separator d.first
    ++ (indentation d.indent ++ headerLine keyword name "\x7b" ++ "\n"))
  indent := d.indent + 1
  first := true
  context := d.context.enter keyword

@[simp] theorem opened_context (d : Draft) (keyword : String) (name : Option String) :
    (d.opened keyword name).context = d.context.enter keyword := rfl

theorem Aligned.opened {d : Draft} (h : d.Aligned) (keyword : String) (name : Option String) :
    (d.opened keyword name).Aligned := by
  unfold Aligned at *
  simp [Draft.opened, h]

theorem startBlock_eq_opened {d : Draft} (h : d.Aligned) (keyword : String)
    (name : Option String) : d.startBlock keyword name = .ok (d.opened keyword name) := by
  have hd : d.indent = d.context.depth := h
  cases hf : d.first <;>
    simp [startBlock, line, Draft.opened, Item.separator, hf, hd, bind, Except.bind, pure,
      Except.pure, String.append_assoc]

/-- Closing a block that has just been filled adds the whole block to what stands around it. -/
theorem endBlock_opened {d : Draft} (h : d.Aligned) (keyword : String) (name : Option String)
    (items : List Item) :
    ((d.opened keyword name).add items).endBlock keyword =
      .ok (d.add [.block keyword name items]) := by
  have hd : d.indent = d.context.depth := h
  simp [endBlock, Draft.opened, Draft.add, line, hd, Item.printAll, Item.print, bind, Except.bind,
    String.append_assoc]

end Draft

end JobFile
