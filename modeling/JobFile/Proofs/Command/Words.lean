import JobFile.Command.Run

/-!
# Command lines are read back

* `Command.words`               : a command line that asks for a command;
* `Command.takeOptions_value`, `Command.takeOptions_plain` : what a word does to the options that
  have been given;
* `Command.ofArguments?_words`  : the command line is read as the command.
-/

namespace JobFile.Command

/-! ## Words -/

/-- A long option with a value in the same word. -/
def valueWord (s : Switch) (value : String) : String := "--" ++ (s.long ++ "=" ++ value)

/-- A long option without a value. -/
def flagWord (s : Switch) : String := "--" ++ s.long

/-- A flag that may be given. -/
def flagWords (s : Switch) (given : Bool) : List String := if given then [flagWord s] else []

/-- The words that ask for a request. -/
def requestWords : Request → List String
  | .render input json echo =>
    "render" :: valueWord inputSwitch input ::
      (flagWords jsonSwitch json ++ flagWords echoSwitch echo)
  | .artifacts => ["artifacts"]
  | .hash input => ["hash", valueWord inputSwitch input]

/-- The words that ask for a command. -/
def words (c : Command) : List String :=
  valueWord directorySwitch c.directory :: requestWords c.request

theorem of_long (known : List Switch) {body : String} (hbody : body ≠ "") :
    Word.of known ("--" ++ body) =
      match longUse? known body with
      | some u => .use u
      | none => .unknown := by
  obtain ⟨c, cs, hcs⟩ := List.exists_cons_of_ne_nil (mt String.toList_eq_nil_iff.1 hbody)
  have htoList : ("--" ++ body).toList = '-' :: '-' :: c :: cs := by simp [hcs]
  unfold Word.of
  rw [htoList]
  show (match longUse? known (String.ofList (c :: cs)) with
    | some u => Word.use u
    | none => .unknown) = _
  rw [← hcs, String.ofList_toList]

theorem of_directory (directory : String) :
    Word.of [directorySwitch] (valueWord directorySwitch directory) =
      .use ⟨directorySwitch, some directory⟩ := by
  rw [valueWord, of_long _ (by simp)]
  simp [longUse?, directorySwitch]

theorem of_input (more : List Switch) (input : String) :
    Word.of (inputSwitch :: more) (valueWord inputSwitch input) =
      .use ⟨inputSwitch, some input⟩ := by
  rw [valueWord, of_long _ (by simp)]
  simp [longUse?, inputSwitch]

/-! ## Options -/

section

variable {known : List Switch} {w : String} {s : Switch} (g : Given) (ws : List String)

theorem takeOptions_value {value : String} (hw : Word.of known w = .use ⟨s, some value⟩)
    (htakes : s.takesValue = true) (hvalue : value ≠ "") :
    takeOptions known (w :: ws) g = (give g s value).bind (takeOptions known ws) := by
  rw [takeOptions, hw]
  simp [htakes, hvalue]

theorem takeOptions_plain (hw : Word.of known w = .plain w) :
    takeOptions known (w :: ws) g = some (g, w :: ws) := by
  rw [takeOptions, hw]

end

/-- The options of a request that reads a file. -/
theorem takeOptions_input (more : List Switch) {input : String} (hinput : input ≠ "")
    (ws : List String) :
    takeOptions (inputSwitch :: more) (valueWord inputSwitch input :: ws) [] =
      takeOptions (inputSwitch :: more) ws [(inputSwitch, input)] :=
  takeOptions_value [] ws (of_input more input) rfl hinput

/-! ## Commands -/

/-- Does a request name a file, if it reads one? -/
def Named : Request → Prop
  | .render input _ _ | .hash input => input ≠ ""
  | .artifacts => True

theorem request?_requestWords {request : Request} (hnamed : Named request) :
    ∃ name ws, requestWords request = name :: ws ∧
      Word.of [directorySwitch] name = .plain name ∧ request? name ws = some request := by
  cases request with
  | artifacts => exact ⟨_, _, rfl, by decide, rfl⟩
  | hash input =>
    refine ⟨_, _, rfl, by decide, ?_⟩
    unfold request? requestOptions?
    rw [takeOptions_input [] hnamed]
    rfl
  | render input json echo =>
    refine ⟨_, _, rfl, by decide, ?_⟩
    unfold request? requestOptions?
    rw [takeOptions_input [jsonSwitch, echoSwitch] hnamed]
    cases json <;> cases echo <;> rfl

/-- A command is read from its words, if neither the directory nor the file has an empty name. -/
theorem ofArguments?_words {c : Command} (hdirectory : c.directory ≠ "")
    (hnamed : Named c.request) : ofArguments? c.words = some c := by
  obtain ⟨directory, request⟩ := c
  obtain ⟨name, ws, hwords, hplain, hrequest⟩ := request?_requestWords hnamed
  unfold ofArguments? words
  rw [takeOptions_value [] _ (of_directory directory) rfl hdirectory, hwords]
  show Option.bind (takeOptions _ (name :: ws) [(directorySwitch, directory)]) _ = _
  rw [takeOptions_plain _ _ hplain]
  show Option.bind (request? name ws) _ = _
  rw [hrequest]
  rfl

end JobFile.Command
