import Mathlib
import JobFile.Proofs.Description.Place
import JobFile.Proofs.Reading.Lines
import JobFile.Proofs.Reading.Reader

/-!
# Documents read back

* `Heredoc.read?`         : what stands before the first end mark in a text, and what follows it;
* `Heredoc.read?_document` : a document is read back if and only if none of its lines is an end
  mark;
* `Heredoc.Encloses`      : renders for every text that hold it as a document;
* `Heredoc.verdict`       : whether there is a render at all;
* `Heredoc.encloses_data` : a text given as data is held as a document, wherever it is given, and
  neither the render around it nor whether there is one depends on it.

A document is written as it is, so that a line of it that is an end mark ends it.
-/

namespace JobFile.Heredoc

/-! ## Up to an end mark -/

/-- The lines before the first end mark, and those behind it. -/
def splitLines? : List (List Char) → Option (List (List Char) × List (List Char))
  | [] => none
  | line :: lines =>
    if line = Assign.endMark.toList then some ([], lines)
    else (splitLines? lines).map fun (inside, behind) => (line :: inside, behind)

/-- What stands before the first line of a text that is an end mark, and what follows that line. -/
def read? (s : String) : Option (String × String) :=
  (splitLines? (s.toList.splitOn '\n')).map fun (inside, behind) =>
    (Text.joined inside, Text.joined behind)

theorem splitLines?_append {inside : List (List Char)} (h : Assign.endMark.toList ∉ inside)
    (behind : List (List Char)) :
    splitLines? (inside ++ Assign.endMark.toList :: behind) = some (inside, behind) := by
  induction inside with
  | nil => simp [splitLines?]
  | cons line inside ih =>
    have hne : ¬line = Assign.endMark.toList := fun heq => h (heq ▸ List.mem_cons_self)
    have hrest := ih fun hmem => h (List.mem_cons_of_mem line hmem)
    rw [List.cons_append, splitLines?, if_neg hne, hrest]
    rfl

theorem eq_of_splitLines? {lines inside behind : List (List Char)}
    (h : splitLines? lines = some (inside, behind)) :
    lines = inside ++ Assign.endMark.toList :: behind ∧ Assign.endMark.toList ∉ inside := by
  induction lines generalizing inside with
  | nil => cases h
  | cons line lines ih =>
    rw [splitLines?] at h
    split at h
    · rename_i hmark
      cases h
      exact ⟨by rw [hmark, List.nil_append], List.not_mem_nil⟩
    · rename_i hne
      obtain ⟨⟨rest, _⟩, hrest, heq⟩ := Option.map_eq_some_iff.1 h
      cases heq
      obtain ⟨hlines, hinside⟩ := ih hrest
      refine ⟨congrArg (line :: ·) hlines, fun hmem => ?_⟩
      rcases List.mem_cons.1 hmem with hline | hmem
      · exact hne hline.symm
      · exact hinside hmem

/-- The lines of a document, its end mark, and the lines of what follows. -/
theorem splitOn_document (text behind : String) :
    (text ++ ("\n" ++ Assign.endMark ++ "\n") ++ behind).toList.splitOn '\n' =
      text.toList.splitOn '\n' ++ Assign.endMark.toList :: behind.toList.splitOn '\n' := by
  have hmark : '\n' ∉ Assign.endMark.toList := by decide
  have htext : (text ++ ("\n" ++ Assign.endMark ++ "\n") ++ behind).toList =
      text.toList ++ '\n' :: (Assign.endMark.toList ++ '\n' :: behind.toList) := by
    simp
  rw [htext, List.splitOn_append_cons_self, List.splitOn_append_cons_self_of_not_mem hmark]

/-- **A document is read back if and only if none of its lines is an end mark.** -/
theorem read?_document (text behind : String) :
    read? (text ++ ("\n" ++ Assign.endMark ++ "\n") ++ behind) = some (text, behind) ↔
      Assign.endMark.toList ∉ text.toList.splitOn '\n' := by
  constructor
  · intro hread
    obtain ⟨⟨inside, rest⟩, hsplit, heq⟩ := Option.map_eq_some_iff.1 hread
    cases heq
    obtain ⟨hall, hinside⟩ := eq_of_splitLines? hsplit
    cases inside with
    | nil => decide
    | cons first inside =>
      -- The lines that are joined to the text are split from it again.
      have hbreaks : ∀ l ∈ first :: inside, '\n' ∉ l := fun l hl => by
        have hmem := List.mem_append_left (Assign.endMark.toList :: rest) hl
        rw [← hall] at hmem
        exact Text.not_mem_of_mem_splitOn hmem
      rw [Text.splitOn_joined hbreaks (List.cons_ne_nil first inside)]
      exact hinside
  · intro hmark
    rw [read?, splitOn_document, splitLines?_append hmark]
    simp only [Option.map_some, Text.joined_splitOn]

/-! ## Data in its document -/

/-- Renders for every text: either all are the same error, or the same document if the text may be
passed over; or each holds its text as a document behind the line that opens it.  What stands
before that line and what follows the end mark is the same for all of them, and every text of which
no line is an end mark is read back, followed by nothing but that. -/
def Encloses (key : String) (passed : Prop) (render : String → Except Failure String) : Prop :=
  (∃ result, (∀ document, result = .ok document → passed) ∧ ∀ t, render t = result) ∨
    ∃ (before : String) (depth : Nat) (behind : String), ∀ t, ∃ lines,
      render t =
        .ok (before ++ indentation depth ++ (key ++ " = <<" ++ Assign.endMark ++ "\n") ++ lines) ∧
      (read? lines = some (Text.trimEnd t, behind) ↔
        Assign.endMark.toList ∉ (Text.trimEnd t).toList.splitOn '\n')

/-- The document of an outcome. -/
def finished : Outcome → Except Failure String
  | .done d => d.finish.mapError .breached
  | .failed _ why => .error (.refused why)
  | .breached why => .error (.breached why)

theorem finished_behind (lead : String) (o : Outcome) :
    finished (o.behind lead) = (finished o).map (lead ++ ·) := by
  cases o with
  | failed d why => rfl
  | breached why => rfl
  | done d =>
    show (d.behind lead).finish.mapError _ = (d.finish.mapError _).map _
    rw [Draft.finish_behind]
    cases d.finish <;> rfl

/-- The render of a script that quotes a text. -/
theorem encloses_of_quoting {key : String} {passed : Prop} {write : String → Script}
    (h : Script.Quoting key passed write) :
    Encloses key passed fun t => (write t).document := by
  rcases h {} with ⟨o, hdone, ho⟩ | ⟨before, depth, o, ho⟩
  · have hrender : ∀ t, (write t).document = finished o := fun t => congrArg finished (ho t)
    refine .inl ⟨finished o, fun document hdocument => ?_, hrender⟩
    cases o with
    | done d => exact hdone d rfl
    | failed d why => cases hdocument
    | breached why => cases hdocument
  · have hrender : ∀ t, (write t).document =
        (finished o).map (before ++ Assign.documentText depth key t ++ ·) := fun t =>
      (congrArg finished (ho t)).trans (finished_behind _ o)
    cases hfinished : finished o with
    | error why =>
      rw [hfinished] at hrender
      refine .inl ⟨.error why, fun document hdocument => ?_, hrender⟩
      cases hdocument
    | ok behind =>
      rw [hfinished] at hrender
      refine .inr ⟨before, depth, behind, fun t => ?_⟩
      refine ⟨Text.trimEnd t ++ ("\n" ++ Assign.endMark ++ "\n") ++ behind, ?_,
        read?_document (Text.trimEnd t) behind⟩
      refine (hrender t).trans ?_
      simp [Except.map, Assign.documentText, String.append_assoc]

/-- Whether there is a document, and why not. -/
def verdict (result : Except Failure String) : Except Failure Unit := result.map fun _ => ()

theorem verdict_finished_bare (o : Outcome) :
    verdict (finished o.bare) = verdict (finished o) := by
  cases o with
  | failed d why => rfl
  | breached why => rfl
  | done d =>
    show verdict (d.bare.finish.mapError _) = verdict (d.finish.mapError _)
    unfold Draft.finish Draft.bare
    dsimp only
    split <;> rfl

/-- Scripts that end alike both give a document, or neither for the same reason. -/
theorem verdict_of_alike {s s' : Script} (h : Script.Alike s s') :
    verdict s.document = verdict s'.document := by
  show verdict (finished (Script.run s {})) = verdict (finished (Script.run s' {}))
  rw [← verdict_finished_bare, h {} rfl, verdict_finished_bare]

/-- **Data cannot leave its document, unless one of its lines is an end mark**, and it does not
decide whether there is a render: there is one exactly where there is one without it.  That holds
for a text that is assigned to any key, for the data of a template among any calls, inside any
blocks and steps, and for the data of a template node at any place of a description, where it may
be given only once. -/
theorem encloses_data :
    (∀ (key : String) (c : Surroundings),
      (Encloses key c.catches fun t => (c.fill (Assign.document key t)).document) ∧
      ∀ t, verdict (c.fill (Assign.document key t)).document = verdict (c.fill []).document) ∧
    (∀ (c : Surroundings) (settings : Stanza.template.Settings) (body : Script),
      let render data :=
        (c.fill (Stanza.template.write () (Stanza.withData settings data) body)).document
      (Encloses "data" c.catches fun t => render (some t)) ∧
      ∀ t, verdict (render (some t)) = verdict (render none)) ∧
    ∀ (registry : Registry) (job : String) (place : Node.Place) (name : Option String)
      (value : Option Value) (values : Option (List (String × Value))) (children : List Node)
      (before after : List (String × Json)),
      let render data := Description.render registry
        ⟨job, place.fill (.templateWith name value values children before after data)⟩
      (Encloses "data" False fun t => render (some t)) ∧
      ("data" ∉ Entries.keys before → "data" ∉ Entries.keys after →
        ∀ t, verdict (render (some t)) = verdict (render none)) := by
  refine ⟨fun key c => ⟨?_, fun t => ?_⟩, fun c settings body => ⟨?_, fun t => ?_⟩,
    fun registry job place name value values children before after => ⟨?_, ?_⟩⟩
  · exact encloses_of_quoting (c.quoting (Script.quoting_document key))
  · exact verdict_of_alike (c.fill_alike (Script.document_alike key t))
  · exact encloses_of_quoting (c.quoting (Stanza.template_quoting settings body))
  · exact verdict_of_alike (c.fill_alike (Stanza.template_alike settings body (some t) none))
  · exact encloses_of_quoting (Description.template_quoting registry job place name value values
      children before after)
  · intro hbefore hafter t
    exact verdict_of_alike (Description.template_alike registry job place name value values
      children before after hbefore hafter (some t) none)

/-- A place inside a task. -/
def insideTask : Node.Place :=
  .inside [] "group" (some "g") none none
    (.inside [] "task" (some "t") none none (.beside [] []) [] []) [] []

/-- A closing brace in data closes nothing. -/
theorem encloses_data_closing_brace :
    let render data := Description.render {} ⟨"j", insideTask.fill
      (.templateWith none none none [] [("destination", .string "f")] [] data)⟩
    render (some "\x7d\n") = .ok ("job \"j\" \x7b\n  group \"g\" \x7b\n    task \"t\" \x7b\n" ++
      "      driver = \"exec\"\n\n      template \x7b\n        destination = \"f\"\n" ++
      "        data = <<BLOB\n\x7d\nBLOB\n      \x7d\n    \x7d\n  \x7d\n\x7d\n") ∧
    verdict (render (some "\x7d\n")) = verdict (render none) := by
  have hdata := encloses_data.2.2 {} "j" insideTask none none none []
    [("destination", .string "f")] []
  refine ⟨?_, hdata.2 (by decide) (by decide) "\x7d\n"⟩
  cbv

/-- **A line that is an end mark lets data out**: what follows it is read as an assignment of its
own. -/
theorem data_let_out :
    Text.trimEnd "a\nBLOB\nforged = <<BLOB\nb" = "a\nBLOB\nforged = <<BLOB\nb" ∧
    (Assign.document "data" "a\nBLOB\nforged = <<BLOB\nb").document =
      .ok "data = <<BLOB\na\nBLOB\nforged = <<BLOB\nb\nBLOB\n" ∧
    read? "a\nBLOB\nforged = <<BLOB\nb\nBLOB\n" = some ("a", "forged = <<BLOB\nb\nBLOB\n") ∧
    Reader.read "data = <<BLOB\na\nBLOB\nforged = <<BLOB\nb\nBLOB\n" =
      some [.document "data" "a", .document "forged" "b"] := by
  refine ⟨?_, ?_, ?_, ?_⟩
  · decide +kernel
  · cbv
  · decide +kernel
  · cbv

end JobFile.Heredoc
