import JobFile.Proofs.Reading.Denoted
import JobFile.Proofs.Reading.Outline

/-!
# Rendered descriptions are read back

* `Description.document_eq` : the document of a description is its tree, printed;
* `Description.read_document` : it is read as this tree;
* `Description.read_back` : so it is balanced, and no other tree has the same document.
-/

namespace JobFile

namespace Description

variable {registry : Registry} {d : Description}

/-- The document of a description is its tree, printed. -/
theorem document_eq {document : String} (h : d.render registry = .ok document) :
    document = Item.printAll 0 true (Entry.allItems (d.tree registry)) := by
  have hcheck := check_of_render h
  rw [render_of_check, hcheck] at h
  cases h
  rfl

/-- What has been printed for legible entries reads as these entries. -/
theorem read_document {document : String} (h : d.render registry = .ok document)
    (hchosen : ∀ c ∈ d.chosen registry, c.Legible) :
    Reader.read document = some (d.tree registry) := by
  have hread := Entry.read_allItems (d.tree registry) {} true [] (tree_legible hchosen) rfl
  have hdocument := document_eq h
  unfold Reader.read
  rw [List.append_nil, show Reader.depth {} = 0 from rfl, ← hdocument] at hread
  rw [hread]
  rfl

/-- **A rendered description can be read back**, provided that the chosen keys are plain and that no
line of a chosen document is an end mark.  The document is read as the tree that the description
denotes.  So its brackets are balanced, its lines are indented by the blocks around them, and no
description that denotes another tree has the same document, under whatever registry. -/
theorem read_back {document : String} (h : d.render registry = .ok document)
    (hkeys : ∀ k, .key k ∈ d.chosen registry → Text.isPlain k)
    (hdocuments : ∀ text, .document text ∈ d.chosen registry →
      Assign.endMark.toList ∉ text.toList.splitOn '\n') :
    Reader.read document = some (d.tree registry) ∧ Outline.Balanced document ∧
      ∀ (registry' : Registry) (d' : Description), d'.render registry' = .ok document →
        (∀ k, .key k ∈ d'.chosen registry' → Text.isPlain k) →
        (∀ text, .document text ∈ d'.chosen registry' →
          Assign.endMark.toList ∉ text.toList.splitOn '\n') →
        d'.tree registry' = d.tree registry := by
  have hread := read_document h (Chosen.legible_of hkeys hdocuments)
  refine ⟨hread, Reader.balanced_of_read hread, ?_⟩
  intro registry' d' h' hkeys' hdocuments'
  have hread' := read_document h' (Chosen.legible_of hkeys' hdocuments')
  rw [hread] at hread'
  exact (Option.some.inj hread').symm

/-- The document of a task with nested driver settings and a template reads back, although names,
values and the template hold brackets, quotes and end marks. -/
theorem read_back_task :
    let d : Description :=
      { job := "a \"b\" \x7b"
        stanzas :=
          [{ stanza := "group", name := some "\x7d\n", children :=
            [{ stanza := "task", name := some "BLOB", fields := [("driver", .string "docker")],
               children :=
                [{ stanza := "env", values := some [("A.B", .text "<<BLOB")] },
                  { stanza := "config",
                    values := some [("image", .text "x"), ("labels", .map [("port", .text "8080")])] },
                  { stanza := "template",
                    fields := [("data", .string "a = \x7b\n BLOB\n\n "), ("destination", .string "e")] }] }] }] }
    ∃ document, d.render {} = .ok document ∧ Reader.read document = some (d.tree {}) ∧
      Outline.Balanced document := by
  intro d
  have hrender : d.render {} = .ok (Item.printAll 0 true (Entry.allItems (d.tree {}))) := by
    rw [render_of_check]
    rfl
  have hlegible : ∀ c ∈ d.chosen {}, c.Legible := by
    have hchosen : d.chosen {} =
        [.key "A.B", .key "image", .key "labels", .key "port", .document "a = \x7b\n BLOB"] := rfl
    rw [hchosen]
    decide
  have h := read_back hrender (fun k hk => hlegible (.key k) hk)
    (fun text ht => hlegible (.document text) ht)
  exact ⟨_, hrender, h.1, h.2.1⟩

end Description

end JobFile
