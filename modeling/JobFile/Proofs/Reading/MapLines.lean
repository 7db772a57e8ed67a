import JobFile.Proofs.Description.Agreement
import JobFile.Proofs.Reading.Lines
import JobFile.Proofs.Reading.Token
import JobFile.Text.QuotedRoundtrip

/-!
# The lines of text maps

* `Text.backslash_of_encode`  : inside a literal, a backslash stands before every double quote;
* `Assign.text_line_inj`      : an assignment of a text tells its key and its text;
* `Assign.run_textMap`        : what is written for texts by key, one line for each of them;
* `Assign.textMap_told_apart` : no two maps are written alike if no key holds a line break;
* `Assign.textMap_key_forges_entry` : a key with a line break stands for two entries.

Keys are written as they are, so that one with a line break can stand for several assignments.
-/

namespace JobFile

namespace Text

theorem double_quote_of_escape {c : Char} (h : '"' ∈ escape c) : c = '"' := by
  rcases mem_escape h with ⟨hc, -⟩ | h
  · exact hc.symm
  · exact absurd h (by decide)

theorem backslash_of_escape {c : Char} {before after : List Char}
    (h : escape c = before ++ '"' :: after) : before.getLast? = some '\\' := by
  have hmem : '"' ∈ escape c := by
    rw [h]
    exact List.mem_append_right before List.mem_cons_self
  have hc := double_quote_of_escape hmem
  subst hc
  match before with
  | [] => cases h
  | [b] =>
    cases h
    rfl
  | [_, _] | _ :: _ :: _ :: _ => cases h

/-- **Inside a literal, a backslash stands before every double quote.** -/
theorem backslash_of_encode {cs before after : List Char}
    (h : encode cs = before ++ '"' :: after) : before.getLast? = some '\\' := by
  induction cs generalizing before with
  | nil =>
    rw [encode_nil] at h
    exact absurd h.symm (List.append_ne_nil_of_right_ne_nil before (List.cons_ne_nil _ _))
  | cons c cs ih =>
    rw [encode_cons, List.append_eq_append_iff] at h
    rcases h with ⟨rest, hbefore, hrest⟩ | ⟨rest, hescape, hrest⟩
    · -- The double quote stands behind the first character.
      rw [hbefore, List.getLast?_append, ih hrest]
      rfl
    · cases rest with
      | nil =>
        have hlast : ([] : List Char).getLast? = some '\\' := ih hrest.symm
        cases hlast
      | cons q rest =>
        rw [List.cons_append, List.cons.injEq] at hrest
        rw [← hrest.1] at hescape
        exact backslash_of_escape hescape

end Text

/-! ## One line -/

namespace Assign

/-- What stands between a key and the inside of its text. -/
def opening : List Char := [' ', '=', ' ', '"']

/-- The end of a key cannot be found earlier or later than it is. -/
theorem opening_inj {rest inside inside' : List Char}
    (h : opening ++ Text.encode inside ++ ['"'] =
      rest ++ (opening ++ Text.encode inside' ++ ['"'])) : rest = [] := by
  match rest with
  | [] => rfl
  | [_] | [_, _] | [_, _, _] => simp [opening] at h
  | a :: b :: c :: d :: rest =>
    -- The second opening would stand inside the first text, and bring a bare double quote there.
    have hinside : Text.encode inside =
        (rest ++ [' ', '=', ' ']) ++ '"' :: Text.encode inside' := by
      have htail : Text.encode inside ++ ['"'] =
          (rest ++ [' ', '=', ' ']) ++ '"' :: Text.encode inside' ++ ['"'] := by
        have hcut := congrArg (List.drop 4) h
        simpa [opening] using hcut
      exact List.append_cancel_right htail
    have hlast := Text.backslash_of_encode hinside
    simp at hlast

/-- **An assignment of a text tells its key and its text**, whatever the key holds. -/
theorem text_line_inj {key key' value value' : String}
    (h : key ++ " = " ++ Text.quote value = key' ++ " = " ++ Text.quote value') :
    key = key' ∧ value = value' := by
  have hlines : key.toList ++ (opening ++ Text.encode value.toList ++ ['"']) =
      key'.toList ++ (opening ++ Text.encode value'.toList ++ ['"']) := by
    simpa [opening] using congrArg String.toList h
  have hkey : key = key' := by
    apply String.toList_injective
    rcases List.append_eq_append_iff.1 hlines with ⟨rest, hkey, htail⟩ | ⟨rest, hkey, htail⟩
    · rw [hkey, opening_inj htail, List.append_nil]
    · rw [hkey, opening_inj htail, List.append_nil]
  subst hkey
  refine ⟨rfl, Text.quote_injective ?_⟩
  exact String.append_right_inj _ |>.1 h

/-! ## All lines of a map -/

/-- The line of an entry inside the given number of blocks. -/
def mapLine (depth : Nat) (e : String × String) : String :=
  indentation depth ++ (e.1 ++ " = " ++ Text.quote e.2)

theorem mapLine_injective (depth : Nat) {e e' : String × String}
    (h : mapLine depth e = mapLine depth e') : e = e' := by
  have hline := (String.append_right_inj _).1 h
  obtain ⟨hkey, hvalue⟩ := text_line_inj hline
  exact Prod.ext hkey hvalue

/-- The lines of the entries of a map, each with its line break. -/
def mapBody (depth : Nat) (es : Entries String) : String :=
  String.join (es.map fun e => mapLine depth e ++ "\n")

theorem printAll_textMap (depth : Nat) (first : Bool) (es : Entries String) :
    Item.printAll depth first (Entry.allItems (es.map fun e => Entry.text e.1 e.2)) =
      mapBody depth es := by
  induction es generalizing first with
  | nil => rfl
  | cons e es ih =>
    have hitems : Entry.allItems ((e :: es).map fun e => Entry.text e.1 e.2) =
        .line (e.1 ++ " = " ++ Text.quote e.2)
          :: Entry.allItems (es.map fun e => Entry.text e.1 e.2) := rfl
    have hbody : mapBody depth (e :: es) = mapLine depth e ++ "\n" ++ mapBody depth es := by
      simp [mapBody]
    rw [hitems, Item.printAll, ih, hbody]
    rfl

/-- **A map is written as a block with one line for every entry.** -/
theorem run_textMap {d : Draft} (h : d.Aligned) (key : String) (es : Entries String) :
    Script.run (textMap key es) d = .done
      { d with
        text := (d.opened key none).text ++ mapBody (d.indent + 1) es
          ++ (indentation d.indent ++ "\x7d" ++ "\n")
        first := false } := by
  rw [Script.run_eq_onto _ d (textMap_paired key es) h, textMap_written]
  have hitems : (Entry.textMap key es).items =
      [.block key none (Entry.allItems (es.map fun e => Entry.text e.1 e.2))] := rfl
  simp only [Written.onto, Outcome.ended, Draft.add, hitems, Item.printAll_singleton, Item.print,
    printAll_textMap, Draft.opened, List.isEmpty_cons, Bool.and_false, String.append_assoc]

theorem newline_not_mem_mapLine {e : String × String} (h : '\n' ∉ e.1.toList) (depth : Nat) :
    '\n' ∉ (mapLine depth e).toList := by
  have hindent : '\n' ∉ (indentation depth).toList := by simp [indentation]
  have hmiddle : '\n' ∉ " = ".toList := by decide
  have hquote := Text.newline_not_mem_quote e.2
  simp only [mapLine, String.toList_append, List.mem_append, not_or]
  exact ⟨hindent, ⟨h, hmiddle⟩, hquote⟩

theorem splitOn_mapBody {es : Entries String} (h : ∀ e ∈ es, '\n' ∉ e.1.toList) (depth : Nat) :
    (mapBody depth es).toList.splitOn '\n' =
      es.map (fun e => (mapLine depth e).toList) ++ [[]] := by
  have hbody : (mapBody depth es).toList =
      (es.map fun e => (mapLine depth e).toList).flatMap (· ++ ['\n']) ++ [] := by
    simp [mapBody, String.toList_join, List.flatMap_map]
  rw [hbody]
  apply Text.splitOn_flatMap
  · intro l hl
    obtain ⟨e, he, rfl⟩ := List.mem_map.1 hl
    exact newline_not_mem_mapLine (h e he) depth
  · exact List.not_mem_nil

/-- The lines of two maps are the same only if the maps are. -/
theorem mapBody_injective {es es' : Entries String} (h : ∀ e ∈ es, '\n' ∉ e.1.toList)
    (h' : ∀ e ∈ es', '\n' ∉ e.1.toList) {depth : Nat} (heq : mapBody depth es = mapBody depth es') :
    es = es' := by
  have hsplit := splitOn_mapBody h depth
  rw [heq, splitOn_mapBody h' depth, List.append_left_inj] at hsplit
  have hline : ∀ e e' : String × String, (mapLine depth e).toList = (mapLine depth e').toList →
      e = e' := fun e e' hline => mapLine_injective depth (String.toList_injective hline)
  exact ((List.map_inj_right hline).1 hsplit).symm

/-- **Maps are told apart by their text if no key holds a line break.**  The block of a map then
holds one line for every entry, and nothing else. -/
theorem textMap_told_apart {es : Entries String} (h : ∀ e ∈ es, '\n' ∉ e.1.toList) {d : Draft}
    (hd : d.Aligned) (key : String) :
    ∃ written, Script.run (textMap key es) d = .done written ∧
      (∃ body, written.text =
          (d.opened key none).text ++ body ++ (indentation d.indent ++ "\x7d" ++ "\n") ∧
        body.toList.splitOn '\n' =
          es.map (fun e => (mapLine (d.indent + 1) e).toList) ++ [[]]) ∧
      ∀ es' : Entries String, (∀ e ∈ es', '\n' ∉ e.1.toList) → ∀ written',
        Script.run (textMap key es') d = .done written' → written.text = written'.text →
          es = es' := by
  refine ⟨_, run_textMap hd key es, ⟨_, rfl, splitOn_mapBody h (d.indent + 1)⟩, ?_⟩
  intro es' h' written' hwritten htext
  rw [run_textMap hd key es'] at hwritten
  cases hwritten
  have hbody := (String.append_left_inj _).1 htext
  exact mapBody_injective h h' ((String.append_right_inj _).1 hbody)

/-- A key that imitates an assignment does not stand for two entries, as long as it is one line. -/
theorem textMap_told_apart_imitation :
    Script.run (textMap "env" [("a = \"1\" b", "2")]) {} ≠
      Script.run (textMap "env" [("a", "1"), ("b", "2")]) {} := by
  have hkeys : ∀ e ∈ ([("a = \"1\" b", "2")] : Entries String), '\n' ∉ e.1.toList := by decide
  have hkeys' : ∀ e ∈ ([("a", "1"), ("b", "2")] : Entries String), '\n' ∉ e.1.toList := by decide
  obtain ⟨written, hwritten, -, hapart⟩ :=
    textMap_told_apart hkeys (rfl : ({} : Draft).Aligned) "env"
  intro hsame
  have heq := hapart _ hkeys' written (hsame ▸ hwritten) rfl
  exact absurd heq (by decide)

/-- **A key with a line break can stand for several entries.** -/
theorem textMap_key_forges_entry :
    Script.run (textMap "env" [("a = \"1\"\n  b", "2")]) {} =
      Script.run (textMap "env" [("a", "1"), ("b", "2")]) {} ∧
    ([("a = \"1\"\n  b", "2")] : Entries String) ≠ [("a", "1"), ("b", "2")] := by
  constructor
  · rfl
  · decide

end Assign

end JobFile
