import JobFile.Proofs.Description.Agreement
import JobFile.Proofs.Reading.CredentialLines
import JobFile.Proofs.Reading.Heredoc
import JobFile.Proofs.Reading.Literal
import JobFile.Proofs.Reading.Outline

/-!
# Credential templates are read back

* `Text.literals?`         : reads literals with single spaces between them;
* `Store.paths?`           : reads the paths from the first line of a template;
* `Store.template_injective` : a template tells its store, its paths and whether it exports;
* `Credentials.written_faithfully` : what credentials write inside a task, and what can be read from
  it.

A literal ends at a quotation mark that its text cannot hold.  So the spaces between literals are
told from those inside them, and the number of the literals is known even if some are empty.
-/

namespace JobFile

/-! ## Literals in a row -/

namespace Text

/-- Reads one literal and those behind it, each after a single space, and returns what follows. -/
def moreLiterals? (cs : List Char) : Option (List String × List Char) :=
  match _hread : unquote? cs with
  | none => none
  | some (s, ' ' :: rest) =>
    (moreLiterals? rest).map fun (ss, after) => (String.ofList s :: ss, after)
  | some (s, after) => some ([String.ofList s], after)
termination_by cs.length
decreasing_by
  have hlength := (unquote?_suffix _hread).length_le
  simp only [List.length_cons] at hlength
  omega

/-- Reads literals with single spaces between them, if there are any, and returns what follows. -/
def literals? : List Char → Option (List String × List Char)
  | '"' :: cs => moreLiterals? ('"' :: cs)
  | cs => some ([], cs)

theorem moreLiterals?_of_space {cs s rest : List Char} (h : unquote? cs = some (s, ' ' :: rest)) :
    moreLiterals? cs =
      (moreLiterals? rest).map fun (ss, after) => (String.ofList s :: ss, after) := by
  rw [moreLiterals?]
  split
  · rename_i hread
    cases hread.symm.trans h
  · rename_i hread
    cases hread.symm.trans h
    rfl
  · rename_i hother hread
    cases hread.symm.trans h
    exact absurd rfl (hother rest)

theorem moreLiterals?_of_end {cs s after : List Char} (h : unquote? cs = some (s, after))
    (hspace : after.head? ≠ some ' ') : moreLiterals? cs = some ([String.ofList s], after) := by
  rw [moreLiterals?]
  split
  · rename_i hread
    cases hread.symm.trans h
  · rename_i hread
    cases hread.symm.trans h
    exact absurd rfl hspace
  · rename_i hread
    cases hread.symm.trans h
    rfl

theorem toList_intercalate_quotes (s : String) (ss : List String) :
    (String.intercalate " " ((s :: ss).map quote)).toList =
      (quote s).toList ++ ss.flatMap fun t => ' ' :: (quote t).toList := by
  rw [String.toList_intercalate]
  induction ss generalizing s with
  | nil => simp
  | cons t ss ih =>
    have ih := ih t
    simp only [List.map_cons, List.intercalate_cons_cons, List.flatMap_cons] at ih ⊢
    rw [ih]
    simp

/-- Literals in a row are read back, unless a space follows that could belong to the row. -/
theorem moreLiterals?_quotes (s : String) (ss : List String) {rest : List Char}
    (h : rest.head? ≠ some ' ') :
    moreLiterals? ((quote s).toList ++ (ss.flatMap fun t => ' ' :: (quote t).toList) ++ rest) =
      some (s :: ss, rest) := by
  induction ss generalizing s with
  | nil =>
    rw [List.flatMap_nil, List.append_nil, moreLiterals?_of_end (unquote?_quote s rest) h,
      String.ofList_toList]
  | cons t ss ih =>
    have hsplit : (quote s).toList ++ ((t :: ss).flatMap fun t => ' ' :: (quote t).toList) ++ rest =
        (quote s).toList ++
          ' ' :: ((quote t).toList ++ (ss.flatMap fun t => ' ' :: (quote t).toList) ++ rest) := by
      simp
    rw [hsplit, moreLiterals?_of_space (unquote?_quote s _), ih t, String.ofList_toList]
    rfl

/-- **Literals with single spaces between them are read back.** -/
theorem literals?_quotes (items : List String) {rest : List Char} (hspace : rest.head? ≠ some ' ')
    (hquote : rest.head? ≠ some '"') :
    literals? ((String.intercalate " " (items.map quote)).toList ++ rest) = some (items, rest) := by
  cases items with
  | nil =>
    unfold literals?
    split
    · rename_i cs heq
      exact absurd (congrArg List.head? heq) hquote
    · rfl
  | cons s ss =>
    have hread := moreLiterals?_quotes s ss hspace
    rw [toList_intercalate_quotes]
    rw [toList_quote] at hread ⊢
    exact hread

end Text

/-! ## Templates -/

namespace Store

/-- Reads the paths from the line that opens a template. -/
def paths? (line : List Char) : Option (List String) := do
  let tail ← line.dropPrefix? "\x7b\x7bwith secret ".toList
  let (paths, after) ← Text.literals? tail
  if after = "\x7d\x7d".toList then some paths else none

variable (s : Store) (paths : List String) (exported : Bool)

theorem paths?_opening :
    paths? (expression ("with secret " ++ String.intercalate " " (paths.map Text.quote))).toList =
      some paths := by
  have hopening :
      (expression ("with secret " ++ String.intercalate " " (paths.map Text.quote))).toList =
        "\x7b\x7bwith secret ".toList ++
          ((String.intercalate " " (paths.map Text.quote)).toList ++ "\x7d\x7d".toList) := by
    simp [expression]
  have hdrop := List.dropPrefix?_append_of_beq
    ((String.intercalate " " (paths.map Text.quote)).toList ++ "\x7d\x7d".toList)
    (beq_self_eq_true "\x7b\x7bwith secret ".toList)
  have hread : Text.literals? ((String.intercalate " " (paths.map Text.quote)).toList ++
      "\x7d\x7d".toList) = some (paths, "\x7d\x7d".toList) :=
    Text.literals?_quotes paths (by decide) (by decide)
  rw [hopening, paths?, hdrop, Option.bind_eq_bind, Option.bind_some, hread]
  rfl

/-- What a template holds, and the line break at its end. -/
theorem trimEnd_template_append :
    Text.trimEnd (s.template paths exported) ++ "\n" = s.template paths exported := by
  apply String.toList_injective
  rw [String.toList_append, trimEnd_template, toList_template]
  rfl

/-- The line that opens a template. -/
theorem head?_lines_template :
    ((s.template paths exported).toList.splitOn '\n').head? = some
      (expression ("with secret " ++ String.intercalate " " (paths.map Text.quote))).toList := by
  have hline := (s.mem_front paths exported _ List.mem_cons_self).1
  rw [toList_template, front, List.map_cons, List.flatMap_cons, List.append_assoc,
    List.append_assoc, List.append_assoc, List.cons_append,
    List.splitOn_append_cons_self_of_not_mem hline]
  rfl

theorem assignments_injective {s s' : Store} {exported exported' : Bool}
    (h : s.assignments (if exported then "export " else "") =
      s'.assignments (if exported' then "export " else "")) : s = s' ∧ exported = exported' := by
  cases s <;> cases s' <;> cases exported <;> cases exported' <;>
    first | exact ⟨rfl, rfl⟩ | exact absurd h (by decide)

/-- **A template tells its store, its paths and whether it exports what it sets.** -/
theorem template_injective {s s' : Store} {paths paths' : List String} {exported exported' : Bool}
    (h : s.template paths exported = s'.template paths' exported') :
    s = s' ∧ paths = paths' ∧ exported = exported' := by
  have hlines := s.lines_template paths exported
  rw [h, lines_template, List.append_left_inj] at hlines
  have hfront := List.map_injective_iff.2 (fun _ _ => String.toList_injective) hlines
  obtain ⟨hopening, hassignments⟩ := List.cons.inj hfront
  have hpaths := paths?_opening paths
  rw [← hopening, paths?_opening] at hpaths
  obtain ⟨hs, hexported⟩ := assignments_injective hassignments
  exact ⟨hs.symm, (Option.some.inj hpaths).symm, hexported.symm⟩

end Store

namespace Credentials

variable (c : Credentials) (name : String) (paths : List String)

/-- The template of credentials.  What is loaded before the task starts is not exported. -/
def template : String := c.store.template paths (!c.preloaded)

theorem entry_eq :
    c.entry name paths = .block "template" none
      ([.text "destination" ("secrets/" ++ name ++ ".env"),
        .document "data" (Text.trimEnd (c.template paths))] ++
          if c.preloaded then [.assign "env" "true"] else []) := by
  obtain ⟨store, preloaded⟩ := c
  cases preloaded <;> rfl

/-- The lines of a block after the end mark of its data: whether it sets the environment, and its
end. -/
def behind (depth : Nat) : String :=
  (if c.preloaded then indentation (depth + 1) ++ "env = true\n" else "") ++
    (indentation depth ++ "\x7d\n")

/-- The block of credentials, with a document that is read back. -/
theorem print_entry (depth : Nat) (first : Bool) :
    Item.printAll depth first (c.entry name paths).items =
      Item.separator first ++ (indentation depth ++ "template \x7b\n") ++
        (indentation (depth + 1) ++ "destination = " ++
          Text.quote ("secrets/" ++ name ++ ".env") ++ "\n") ++
        (indentation (depth + 1) ++ "data = <<BLOB\n") ++
        (Text.trimEnd (c.template paths) ++ ("\n" ++ Assign.endMark ++ "\n") ++
          c.behind depth) := by
  rw [entry_eq, behind]
  cases c.preloaded <;>
    simp [Entry.items, Entry.allItems, Entry.text, Item.printAll, Item.print, headerLine,
      Assign.endMark, String.append_assoc]

/-- What stands in the block of credentials. -/
def items : List Item :=
  Entry.allItems ([.text "destination" ("secrets/" ++ name ++ ".env"),
    .document "data" (Text.trimEnd (c.template paths))] ++
      if c.preloaded then [.assign "env" "true"] else [])

theorem env_mem_items : .line "env = true" ∈ c.items name paths ↔ c.preloaded = true := by
  have hdestination : ¬"env = true" =
      "destination = " ++ Text.quote ("secrets/" ++ name ++ ".env") := by
    intro heq
    have hhead := congrArg (fun s => s.toList.head?) heq
    simp at hhead
  have hdata : ¬"env = true" = "data = <<" ++ Assign.endMark := by decide
  unfold items
  cases c.preloaded <;> simp [Entry.allItems, Entry.items, Entry.text, hdestination, hdata]

/-- **Credentials are written as they are asked for, whatever their name and their paths hold.**
Inside a task one block is added.  Its destination is a literal for a file of the name, its data is
read back up to the end mark, and it sets the environment exactly if it is loaded before the task
starts.  The first line of the data is made of literals for the paths, which are read back from it,
and the data tells what it was made for. -/
theorem written_faithfully :
    (∀ (registry : Registry) (c : Credentials) (name : String) (paths : List String) (d : Draft),
      d.Aligned → d.context.current = "task" →
      ∃ content destination items lines,
        c.template paths = content ++ "\n" ∧
        Text.IsLiteral Reading.decodeText ("secrets/" ++ name ++ ".env") destination ∧
        ((Call.credentials c name paths).action registry).run d =
          .done (d.add [.block "template" none items]) ∧
        (.line "env = true" ∈ items ↔ c.preloaded = true) ∧
        (d.add [.block "template" none items]).text =
          d.text ++ (Item.separator d.first ++ (indentation d.indent ++ "template \x7b\n") ++
            (indentation (d.indent + 1) ++ "destination = " ++ destination ++ "\n") ++
            (indentation (d.indent + 1) ++ "data = <<BLOB\n") ++ lines) ∧
        Heredoc.read? lines = some (content, c.behind d.indent)) ∧
    (∀ (s : Store) (paths : List String) (exported : Bool), ∃ line literals,
      ((s.template paths exported).toList.splitOn '\n').head? = some line ∧
        Store.paths? line = some paths ∧
        line = (expression ("with secret " ++ String.intercalate " " literals)).toList ∧
        List.Forall₂ (Text.IsLiteral Reading.decodeText) paths literals) ∧
    ∀ (s s' : Store) (paths paths' : List String) (exported exported' : Bool),
      s.template paths exported = s'.template paths' exported' →
        s = s' ∧ paths = paths' ∧ exported = exported' := by
  refine ⟨fun registry c name paths d hd htask => ?_, fun s paths exported => ?_,
    fun s s' paths paths' exported exported' h => Store.template_injective h⟩
  · have hwritten := c.write_agrees "task" name paths
    have hitems : (c.entry name paths).items = [.block "template" none (c.items name paths)] := by
      rw [entry_eq]
      rfl
    have hprint := c.print_entry name paths d.indent d.first
    rw [hitems] at hwritten hprint
    have hrun := Action.run_eq_onto _ d (Call.paired registry (.credentials c name paths)) hd
    refine ⟨_, _, _, _, (c.store.trimEnd_template_append paths _).symm, Text.isLiteral_quote _, ?_,
      c.env_mem_items name paths, congrArg (d.text ++ ·) hprint,
      (Heredoc.read?_document _ _).2 (c.store.endMark_not_mem_template paths _)⟩
    have hscript : Script.written "task" (c.write name paths) = _ := hwritten
    rw [hrun, htask]
    show (Written.caughtIf false (Script.written "task" (c.write name paths))).onto d = _
    rw [hscript]
    rfl
  · refine ⟨_, paths.map Text.quote, s.head?_lines_template paths exported,
      Store.paths?_opening paths, rfl, ?_⟩
    exact List.forall₂_map_right_iff.2 (List.forall₂_same.2 fun path _ => Text.isLiteral_quote path)

/-- Two paths that look like the rest of a template, an end mark, and nothing. -/
def hostilePaths : List String := ["\" \"x\x7d\x7d\nBLOB\n", ""]

theorem written_faithfully_hostile :
    let d := ({} : Draft).opened "task" (some "t")
    ∃ content items lines,
      ((Call.credentials ⟨.aws, true⟩ "a\"b" hostilePaths).action {}).run d =
        .done (d.add [.block "template" none items]) ∧
      .line "env = true" ∈ items ∧
      Heredoc.read? lines = some (content, "    env = true\n  \x7d\n") ∧
      (((Store.aws.template hostilePaths false).toList.splitOn '\n').head?.bind Store.paths?) =
        some hostilePaths ∧
      Store.aws.template ["a b"] false ≠ Store.aws.template ["a", "b"] false := by
  intro d
  obtain ⟨hwritten, hpaths, htells⟩ := written_faithfully
  have haligned : d.Aligned := Draft.Aligned.opened (d := {}) rfl "task" (some "t")
  obtain ⟨content, destination, items, lines, -, -, hrun, henv, -, hread⟩ :=
    hwritten {} ⟨.aws, true⟩ "a\"b" hostilePaths d haligned rfl
  obtain ⟨line, literals, hline, hpath, -, -⟩ := hpaths .aws hostilePaths false
  refine ⟨content, items, lines, hrun, henv.2 rfl, hread, ?_, fun h => ?_⟩
  · rw [hline]
    exact hpath
  · exact absurd (htells _ _ _ _ _ _ h).2.1 (by decide)

end Credentials

end JobFile
