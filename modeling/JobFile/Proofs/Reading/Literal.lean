import JobFile.Proofs.Description.Agreement
import JobFile.Proofs.Reading.Token
import JobFile.Proofs.Record.Filled

/-!
# Literals that are read back

* `Text.IsLiteral`      : a strict reader takes a literal for a value, and finds no control
  character in it;
* `Text.isLiteral_quote`, `Text.isLiteral_quoteAll` : so it is with the literals of texts and of
  lists of texts;
* `Item.lines`          : the lines of an item, with the number of blocks around each;
* `Script.Puts`         : a script writes a line, from whatever draft it starts;
* `Script.WritesText`, `Script.WritesTexts` : the scripts that write a text, a list of texts;
* `Script.literals_read_back` : each of them puts the literal on a line of its own, from which the
  text or the list can be read back.

A literal stays on the line on which it begins, because no character in it breaks the line.
-/

namespace JobFile

/-! ## Literals and what they denote -/

namespace Text

/-- A literal without control characters that a strict reader takes for the value. -/
structure IsLiteral {α : Type} (decode : Reading → Except ReadError α) (a : α) (literal : String) :
    Prop where
  printable : Printable literal.toList
  parsed : parse decode literal = .ok a

/-- What a literal denotes is determined by it. -/
theorem IsLiteral.unique {α : Type} {decode : Reading → Except ReadError α} {a b : α}
    {literal : String} (ha : IsLiteral decode a literal) (hb : IsLiteral decode b literal) :
    a = b :=
  Except.ok.inj (ha.parsed.symm.trans hb.parsed)

theorem isLiteral_quote (s : String) : IsLiteral Reading.decodeText s (quote s) where
  printable := printable_quote s
  parsed := by
    have hplain : (Json.string s).Plain maxDepth := by simp [Json.Plain]
    have htext : quote s = (Json.string s).text := by rw [Json.text]
    rw [htext, parse_text hplain, Json.reading, Reading.decodeText]

theorem text_ofTexts (items : List String) : (Json.ofTexts items).text = quoteAll items := by
  have htexts : Json.texts (items.map .string) = items.map quote := by
    induction items with
    | nil => rfl
    | cons s items ih => rw [List.map_cons, Json.texts, ih, List.map_cons, Json.text]
  rw [Json.ofTexts, Json.text, htexts, quoteAll]

theorem isLiteral_quoteAll (items : List String) :
    IsLiteral Reading.decodeTexts items (quoteAll items) where
  printable := printable_quoteAll items
  parsed := by
    have hplain : (Json.ofTexts items).Plain maxDepth := Json.plain_ofTexts _ items
    rw [← text_ofTexts, parse_text hplain, Json.ofTexts, Json.reading, Reading.decodeTexts]
    exact Reading.decodeTextItems_strings items

theorem quoteAll_injective : Function.Injective quoteAll := by
  intro xs ys h
  have hxs := isLiteral_quoteAll xs
  rw [h] at hxs
  exact hxs.unique (isLiteral_quoteAll ys)

end Text

/-! ## Lines -/

namespace Item

mutual
/-- The lines of an item inside the given number of blocks, each with the number of blocks around
it. -/
def lines (depth : Nat) : Item → List (Nat × String)
  | .line text => [(depth, text)]
  | .raw _ => []
  | .block keyword name items =>
    (depth, headerLine keyword name "\x7b") :: (allLines (depth + 1) items ++ [(depth, "\x7d")])
/-- The lines of several items. -/
def allLines (depth : Nat) : List Item → List (Nat × String)
  | [] => []
  | i :: is => i.lines depth ++ allLines depth is
end

theorem allLines_append (depth : Nat) (xs ys : List Item) :
    allLines depth (xs ++ ys) = allLines depth xs ++ allLines depth ys := by
  induction xs with
  | nil => rfl
  | cons x xs ih => simp only [List.cons_append, allLines, ih, List.append_assoc]

mutual
/-- Every line of an item is printed. -/
theorem print_of_mem_lines : ∀ (i : Item) (depth : Nat) (first : Bool) (l : Nat × String),
    l ∈ i.lines depth →
    ∃ before after, i.print depth first = before ++ (indentation l.1 ++ l.2 ++ "\n") ++ after
  | .line text, depth, first, l => by
    intro h
    rw [lines, List.mem_singleton] at h
    subst h
    exact ⟨"", "", by simp [print]⟩
  | .raw _, _, _, _ => nofun
  | .block keyword name items, depth, first, l => by
    intro h
    simp only [lines, List.mem_cons, List.mem_append, List.not_mem_nil, or_false] at h
    rcases h with rfl | h | rfl
    · exact ⟨separator first,
        printAll (depth + 1) true items ++ (indentation depth ++ "\x7d" ++ "\n"),
        by simp [print, String.append_assoc]⟩
    · obtain ⟨before, after, hprint⟩ := printAll_of_mem_lines items (depth + 1) true l h
      refine ⟨separator first ++ (indentation depth ++ headerLine keyword name "\x7b" ++ "\n")
        ++ before, after ++ (indentation depth ++ "\x7d" ++ "\n"), ?_⟩
      simp only [print, hprint, String.append_assoc]
    · exact ⟨separator first ++ (indentation depth ++ headerLine keyword name "\x7b" ++ "\n")
        ++ printAll (depth + 1) true items, "", by simp [print, String.append_assoc]⟩
theorem printAll_of_mem_lines : ∀ (is : List Item) (depth : Nat) (first : Bool)
    (l : Nat × String), l ∈ allLines depth is →
    ∃ before after, printAll depth first is = before ++ (indentation l.1 ++ l.2 ++ "\n") ++ after
  | [], _, _, _ => nofun
  | i :: is, depth, first, l => by
    intro h
    rw [allLines, List.mem_append] at h
    rcases h with h | h
    · obtain ⟨before, after, hprint⟩ := print_of_mem_lines i depth first l h
      exact ⟨before, after ++ printAll depth false is, by
        rw [printAll, hprint, String.append_assoc]⟩
    · obtain ⟨before, after, hprint⟩ := printAll_of_mem_lines is depth false l h
      exact ⟨i.print depth first ++ before, after, by
        simp only [printAll, hprint, String.append_assoc]⟩
end

end Item

/-! ## Scripts that write a line -/

namespace Script

/-- From whatever draft it starts, the script writes the line at some indentation. -/
def Puts (s : Script) (line : String) : Prop :=
  ∀ d : Draft, d.Aligned → ∃ e refusal depth before after, run s d = .ended e refusal ∧
    e.text = d.text ++ (before ++ (indentation depth ++ line ++ "\n") ++ after)

/-- The line is among those that the script writes inside a block of the given keyword. -/
def Shows (parent : String) (s : Script) (line : String) : Prop :=
  ∀ depth, ∃ k, (k, line) ∈ Item.allLines depth (written parent s).items

/-- What a paired script shows is put into the text. -/
theorem puts_of_shows {s : Script} (hs : Paired s) {line : String}
    (h : ∀ parent, s.Shows parent line) : s.Puts line := by
  intro d hd
  obtain ⟨k, hline⟩ := h d.context.current d.indent
  obtain ⟨before, after, hprint⟩ := Item.printAll_of_mem_lines _ _ d.first _ hline
  refine ⟨_, _, k, before, after, run_eq_onto s d hs hd, ?_⟩
  show d.text ++ Item.printAll d.indent d.first _ = _
  rw [hprint]

section

variable {parent line : String} {s t : Script}

theorem shows_line (parent text : String) : Shows parent [.line text] text := by
  intro depth
  exact ⟨depth, by simp [written, Action.written, Written.nothing, Written.andThen, Item.allLines,
    Item.lines]⟩

theorem Shows.append_left (h : s.Shows parent line) (t : Script) :
    (s ++ t).Shows parent line := by
  intro depth
  obtain ⟨k, hk⟩ := h depth
  refine ⟨k, ?_⟩
  rw [written_append, Written.andThen]
  split
  · rw [Item.allLines_append]
    exact List.mem_append_left _ hk
  · exact hk

/-- What stands behind a script that is not refused is shown too. -/
theorem Shows.append_right (h : t.Shows parent line) (hs : (written parent s).refusal = none) :
    (s ++ t).Shows parent line := by
  intro depth
  obtain ⟨k, hk⟩ := h depth
  refine ⟨k, ?_⟩
  rw [written_append, Written.andThen, hs, Item.allLines_append]
  exact List.mem_append_right _ hk

theorem shows_header (parent keyword : String) (name : Option String) (body : Script) :
    Shows parent [.block keyword name body] (headerLine keyword name "\x7b") := by
  intro depth
  refine ⟨depth, ?_⟩
  rw [written_block]
  simp [Written.enclosed, Item.allLines, Item.lines]

theorem Shows.block {keyword : String} (h : s.Shows keyword line) (parent : String)
    (name : Option String) : Shows parent [.block keyword name s] line := by
  intro depth
  obtain ⟨k, hk⟩ := h (depth + 1)
  refine ⟨k, ?_⟩
  rw [written_block]
  simp [Written.enclosed, Item.allLines, Item.lines, hk]

end

end Script

/-! ## Scripts that write a text -/

/-- Writing a value under a key comes to another value under another key: through maps, in which
what stands before can be written. -/
inductive Value.Reaches (key : String) (v : Value) : String → Value → Prop
  | here : Value.Reaches key v key v
  | entry {outer inner : String} {w : Value} {before after : List (String × Value)}
    (hbefore : Value.checkShapes before = .ok ()) (h : Value.Reaches key v inner w) :
    Value.Reaches key v outer (.map (before ++ (inner, w) :: after))

/-- The line that assigns a literal to a key. -/
def assigned (key literal : String) : String := key ++ " = " ++ literal

/-- The line that opens a block whose name is a literal. -/
def named (keyword bracket literal : String) : String :=
  keyword ++ " " ++ literal ++ " " ++ bracket

/-- The scripts that write a text, and the line that its literal completes. -/
inductive Script.WritesText (s : String) : Script → (String → String) → Prop
  /-- The text is a value. -/
  | value (key : String) :
    WritesText s (Assign.optional (Kind.text.assign key) (some s)) (assigned key)
  /-- The text is a value that has to be there. -/
  | requiredValue (key : String) :
    WritesText s (Assign.required key (Kind.text.assign key) (some s)) (assigned key)
  /-- The text is a value in a map of texts. -/
  | entry {es : Entries String} {key : String} (keyword : String) (h : (key, s) ∈ es) :
    WritesText s (Kind.textMap.assign keyword es) (assigned key)
  /-- The text is an untyped value, or stands in one, and does not look like an integer. -/
  | shape {key outer : String} {v : Value} (h : Value.Reaches key (.text s) outer v)
    (hs : Text.denotesInteger s = false) : WritesText s (v.assign outer) (assigned key)
  /-- The text is the name of a block. -/
  | name (keyword : String) {body : Script} (hbody : Script.Paired body) :
    WritesText s [.block keyword (some s) body] (named keyword "\x7b")
  /-- The text is the name of a block that is left open. -/
  | openName (keyword : String) :
    WritesText s [.startBlock keyword (some s)] (named keyword "\x7b")
  /-- The text is the name of a block on one line. -/
  | shortName (keyword : String) :
    WritesText s [.line (headerLine keyword (some s) "\x7b\x7d")] (named keyword "\x7b\x7d")

/-- The scripts that write a list of texts, and the key to which it is assigned. -/
inductive Script.WritesTexts (items : List String) : Script → String → Prop
  /-- The list is a value. -/
  | value (key : String) :
    WritesTexts items (Assign.optional (Kind.texts.assign key) (some items)) key
  /-- The list is a value that has to be there. -/
  | requiredValue (key : String) :
    WritesTexts items (Assign.required key (Kind.texts.assign key) (some items)) key
  /-- The list is what an untyped value is flattened to. -/
  | flattened {key : String} {v : Value} (h : v.flatten key = .ok items) :
    WritesTexts items (v.assignList key) key
  /-- The list is an untyped value, or stands in one. -/
  | shape {key outer : String} {v : Value} {vs : List Value}
    (h : Value.Reaches key (.list vs) outer v) (hvs : Value.flattenAll key vs = .ok items) :
    WritesTexts items (v.assign outer) key

namespace Script

theorem assignAll_append (xs ys : List (String × Value)) :
    Value.assignAll (xs ++ ys) = Value.assignAll xs ++ Value.assignAll ys := by
  induction xs with
  | nil => rfl
  | cons x xs ih =>
    obtain ⟨key, v⟩ := x
    rw [List.cons_append, Value.assignAll, Value.assignAll, ih, List.append_assoc]

/-- What is shown of a value is shown of every value that comes to it. -/
theorem shows_of_reaches {key outer line : String} {v w : Value} (h : Value.Reaches key v outer w)
    (hv : ∀ parent, Shows parent (v.assign key) line) :
    ∀ parent, Shows parent (w.assign outer) line := by
  induction h with
  | here => exact hv
  | @entry outer inner w before after hbefore h ih =>
    intro parent
    have hnone : (written outer (Value.assignAll before)).refusal = none := by
      have hagrees := Value.assignAll_agrees outer before
      rw [hbefore] at hagrees
      rw [(hagrees : written outer (Value.assignAll before) = _)]
    have hentry : Shows outer (w.assign inner ++ Value.assignAll after) line :=
      (ih outer).append_left _
    have hbody := (hentry.append_right hnone).block parent none
    have hassign : Value.assign outer (.map (before ++ (inner, w) :: after)) =
        [.block outer none
          (Value.assignAll before ++ (w.assign inner ++ Value.assignAll after))] := by
      rw [Value.assign, assignAll_append, Value.assignAll]
    rw [hassign]
    exact hbody

/-- An entry of a map of texts is shown. -/
theorem shows_entry {es : Entries String} {key s : String} (h : (key, s) ∈ es)
    (parent : String) :
    Shows parent (es.flatMap fun e => Assign.text e.1 e.2) (assigned key (Text.quote s)) := by
  obtain ⟨before, after, rfl⟩ := List.append_of_mem h
  have hnone : (written parent (before.flatMap fun e => Assign.text e.1 e.2)).refusal = none := by
    rw [Assign.entries_written]
  rw [List.flatMap_append, List.flatMap_cons]
  exact ((shows_line parent _).append_left _).append_right hnone

/-- A block that is left open has the line at its head. -/
theorem puts_startBlock (keyword : String) (name : Option String) :
    Puts [.startBlock keyword name] (headerLine keyword name "\x7b") := by
  intro d hd
  refine ⟨d.opened keyword name, none, d.indent, Item.separator d.first, "", ?_, ?_⟩
  · rw [run, Action.run, Draft.startBlock_eq_opened hd]
    rfl
  · simp [Draft.opened, String.append_assoc]

/-- A script that writes a text puts its literal on a line. -/
theorem puts_of_writesText {s : String} {script : Script} {line : String → String}
    (h : WritesText s script line) : script.Puts (line (Text.quote s)) := by
  cases h with
  | value key | requiredValue key =>
    exact puts_of_shows (Kind.text.assign_paired key s) fun parent => shows_line parent _
  | entry keyword h =>
    exact puts_of_shows (Assign.textMap_paired keyword _) fun parent =>
      (shows_entry h keyword).block parent none
  | @shape key outer v h hs =>
    have htext : Value.assign key (.text s) = [.line (assigned key (Text.quote s))] := by
      rw [Value.assign, hs]
      rfl
    have hkey : ∀ parent, Shows parent (Value.assign key (.text s))
        (assigned key (Text.quote s)) := by
      intro parent
      rw [htext]
      exact shows_line parent _
    exact puts_of_shows (v.assign_paired outer) (shows_of_reaches h hkey)
  | @name keyword body hbody =>
    have hpaired : Paired [.block keyword (some s) body] := ⟨hbody, trivial⟩
    exact puts_of_shows hpaired fun parent => shows_header parent keyword (some s) body
  | openName keyword => exact puts_startBlock keyword (some s)
  | shortName keyword =>
    have hpaired : Paired [.line (headerLine keyword (some s) "\x7b\x7d")] := ⟨trivial, trivial⟩
    exact puts_of_shows hpaired fun parent => shows_line parent _

/-- A script that writes a list of texts puts its literal on the line of a key. -/
theorem puts_of_writesTexts {items : List String} {script : Script} {key : String}
    (h : WritesTexts items script key) : script.Puts (assigned key (Text.quoteAll items)) := by
  have hlist : ∀ v : Value, v.flatten key = .ok items → ∀ parent,
      Shows parent (v.assignList key) (assigned key (Text.quoteAll items)) := by
    intro v hv parent
    rw [Value.assignList, hv]
    exact shows_line parent _
  cases h with
  | value | requiredValue =>
    exact puts_of_shows (Kind.texts.assign_paired key items) fun parent => shows_line parent _
  | @flattened _ v h => exact puts_of_shows (v.assignList_paired key) (hlist v h)
  | @shape _ outer v vs h hvs =>
    exact puts_of_shows (v.assign_paired outer) (shows_of_reaches h (hlist (.list vs) hvs))

/-- **Texts and lists are read back from the literals that are written for them.**  A literal stands
on one line, wherever a script writes it, and tells its text or its list. -/
theorem literals_read_back :
    (∀ s, Text.IsLiteral Reading.decodeText s (Text.quote s)) ∧
      (∀ items, Text.IsLiteral Reading.decodeTexts items (Text.quoteAll items)) ∧
      Function.Injective Text.quote ∧ Function.Injective Text.quoteAll ∧
      (∀ s script line, WritesText s script line → script.Puts (line (Text.quote s))) ∧
      ∀ items script key, WritesTexts items script key →
        script.Puts (assigned key (Text.quoteAll items)) := by
  refine ⟨Text.isLiteral_quote, Text.isLiteral_quoteAll, fun _ _ => Text.quote_injective,
    Text.quoteAll_injective, fun s script line h => ?_, fun items script key h => ?_⟩
  · exact puts_of_writesText h
  · exact puts_of_writesTexts h

/-- A text with a quotation mark and a line break, two maps deep. -/
def quotedTwice : Value := .map [("a", .boolean true), ("b", .map [("c", .text "x\"\ny")])]

theorem literals_read_back_nested :
    Value.Reaches "c" (.text "x\"\ny") "m" quotedTwice ∧
      Text.IsLiteral Reading.decodeText "x\"\ny" "\"x\\\"\\ny\"" ∧
      (quotedTwice.assign "m").Puts (assigned "c" "\"x\\\"\\ny\"") ∧
      Text.IsLiteral Reading.decodeTexts ["1", "true"] "[\"1\",\"true\"]" ∧
      (Value.assign "l" (.list [.integer 1, .list [.boolean true]])).Puts
        (assigned "l" "[\"1\",\"true\"]") := by
  obtain ⟨htext, htexts, -, -, hputs, hputsAll⟩ := literals_read_back
  have hquote : "\"x\\\"\\ny\"" = Text.quote "x\"\ny" := by decide
  have hquotes : "[\"1\",\"true\"]" = Text.quoteAll ["1", "true"] := by decide
  have hbefore : Value.checkShapes [("a", .boolean true)] = .ok () := rfl
  have hinner : Value.Reaches "c" (.text "x\"\ny") "b" (.map [("c", .text "x\"\ny")]) :=
    .entry (rfl : Value.checkShapes [] = .ok ()) .here
  have hreaches : Value.Reaches "c" (.text "x\"\ny") "m" quotedTwice := .entry hbefore hinner
  have hitems : Value.flattenAll "l" [.integer 1, .list [.boolean true]] = .ok ["1", "true"] := rfl
  rw [hquote, hquotes]
  exact ⟨hreaches, htext _, hputs _ _ _ (.shape hreaches (by decide)), htexts _,
    hputsAll _ _ _ (.shape .here hitems)⟩

end Script

end JobFile
