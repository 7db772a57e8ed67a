import JobFile.Proofs.Artifact.Loading
import JobFile.Proofs.Command.Words
import JobFile.Proofs.Description.Rendering
import JobFile.Proofs.Json.ReadsBack
import JobFile.Proofs.Reading.Token

/-!
# The views of a job

* `Json.newline_not_mem_text`, `parse_line` : a value is written on a single line, and read from it;
* `Renders`, `Fails`       : a job is rendered, or one of its steps fails;
* `renders_or_fails`       : there is no third way;
* `Command.View`           : the requests that show what becomes of a job;
* `Command.run_of_fails`, `Command.run_render_of_renders`, `Command.run_hash_of_renders` : what each
  of them shows;
* `Command.desk`           : a disk with jobs that come through and jobs that do not;
* `Command.views_agree`    : they agree.

The words of the reader of texts are part of what a failure says, and are any words here: the views
read the same text, so they are told the same.
-/

namespace JobFile

/-! ## JSON values on lines of their own -/

namespace Json

theorem newline_not_mem_fromMember {k : String} {v : Json} {after : List Char}
    (hvalue : '\n' ∉ v.text.toList) (hafter : '\n' ∉ after) : '\n' ∉ fromMember k v after := by
  simp only [fromMember, List.mem_append, List.mem_cons, not_or]
  exact ⟨Text.newline_not_mem_quote k, by decide, hvalue, hafter⟩

mutual
/-- The text of a value is a single line. -/
theorem newline_not_mem_text : ∀ (v : Json) (depth : Nat), v.Plain depth → '\n' ∉ v.text.toList
  | .null, _, _ => by decide
  | .bool true, _, _ | .bool false, _, _ => by decide
  | .number (.integer i _), _, _ => (Text.oneLine_int i).line
  | .string s, _, _ => Text.newline_not_mem_quote s
  | .array vs, depth + 1, h => by
    rw [toList_array, List.mem_cons, not_or]
    exact ⟨by decide, newline_not_mem_itemsText vs depth h⟩
  | .object ms, depth + 1, h => by
    rw [toList_object, List.mem_cons, not_or]
    exact ⟨by decide, newline_not_mem_membersText ms depth h⟩
theorem newline_not_mem_itemsText : ∀ (vs : List Json) (depth : Nat), AllPlain depth vs →
    '\n' ∉ itemsText vs
  | [], _, _ => by decide
  | v :: vs, depth, h => by
    rw [itemsText, List.mem_append, not_or]
    exact ⟨newline_not_mem_text v depth h.1, newline_not_mem_moreItems vs depth h.2⟩
theorem newline_not_mem_moreItems : ∀ (vs : List Json) (depth : Nat), AllPlain depth vs →
    '\n' ∉ moreItems vs
  | [], _, _ => by decide
  | v :: vs, depth, h => by
    rw [moreItems, List.mem_cons, List.mem_append, not_or, not_or]
    exact ⟨by decide, newline_not_mem_text v depth h.1, newline_not_mem_moreItems vs depth h.2⟩
theorem newline_not_mem_membersText : ∀ (ms : List (String × Json)) (depth : Nat),
    MembersPlain depth ms → '\n' ∉ membersText ms
  | [], _, _ => by decide
  | (_, v) :: ms, depth, h =>
    newline_not_mem_fromMember (newline_not_mem_text v depth h.1)
      (newline_not_mem_moreMembers ms depth h.2)
theorem newline_not_mem_moreMembers : ∀ (ms : List (String × Json)) (depth : Nat),
    MembersPlain depth ms → '\n' ∉ moreMembers ms
  | [], _, _ => by decide
  | (_, v) :: ms, depth, h => by
    rw [moreMembers, List.mem_cons, not_or]
    exact ⟨by decide, newline_not_mem_fromMember (newline_not_mem_text v depth h.1)
      (newline_not_mem_moreMembers ms depth h.2)⟩
end

end Json

/-- The line of a value is read as the value. -/
theorem parse_line {α : Type} {decode : Reading → Except ReadError α} {j : Json}
    (h : j.Plain maxDepth) : parse decode (j.text ++ "\n") = decode j.reading := by
  have hread : Reading.ofText (j.text ++ "\n") = (j.reading, true) := by
    have hends : Decimal.Ends ['\n'] := by simp [Decimal.Ends]
    have hfuel : 2 * j.text.toList.length ≤ Reading.enough (j.text.toList ++ ['\n']) := by
      simp only [Reading.enough, List.length_append]
      omega
    have hspace : Reading.skipSpace ['\n'] = [] := by decide
    have htext : (j.text ++ "\n").toList = j.text.toList ++ ['\n'] := String.toList_append
    rw [Reading.ofText, htext, Reading.read_text j maxDepth _ ['\n'] h hfuel hends]
    simp [hspace]
  unfold parse parseReading
  rw [hread]
  simp only [Json.limit_reading _ _ h, if_true]
  exact bind_pure _

/-- The members of an envelope, sorted. -/
theorem sorted_envelope (job document : String) :
    (envelope job document).sorted = .object [("document", .string document),
      ("document_hash", .string (fingerprint document)), ("engine_version", .string version),
      ("job", .string job), ("success", .bool true)] := rfl

/-- What a failure says. -/
def failureJson (message : String) : Json :=
  .object [("error", .string message), ("success", .bool false)]

/-- A failure is a line, and nothing on the error stream. -/
theorem Report.failure_eq (code : UInt8) (message : String) :
    Report.failure code message = ⟨code, (failureJson message).text ++ "\n", ""⟩ := rfl

theorem failureJson_plain (message : String) : (failureJson message).Plain maxDepth :=
  ⟨trivial, trivial, trivial⟩

/-- The line of a failure is decoded to what it says. -/
theorem parse_failure_line (message : String) :
    parse Reading.decodeJson ((failureJson message).text ++ "\n") = .ok (failureJson message) := by
  rw [parse_line (failureJson_plain message)]
  rfl

/-- The line of an envelope is decoded to its members, sorted. -/
theorem parse_envelope_line (job document : String) :
    parse Reading.decodeJson (Report.jsonLine (envelope job document)) =
      .ok (envelope job document).sorted := by
  have hplain : (envelope job document).sorted.Plain maxDepth := by
    rw [sorted_envelope]
    exact ⟨trivial, trivial, trivial, trivial, trivial, trivial⟩
  rw [Report.jsonLine, parse_line hplain, sorted_envelope]
  rfl

/-! ## How far a job comes -/

section

variable (wording : Wording) (disk : Disk Id) (directory input : String)

/-- The description in a file is rendered to a document, with the artifacts of a directory. -/
def Renders (d : Description) (document : String) : Prop :=
  ∃ registry text, Registry.load disk directory = .ok registry ∧
    disk.readText input = .ok text ∧ Description.parse text = .ok d ∧
    d.render registry = .ok document

/-- Why it is not, with the code of the failure.  The artifacts come first. -/
inductive Fails : UInt8 → String → Prop where
  | unloaded {why : LoadError} (hload : Registry.load disk directory = .error why) :
    Fails 1 ("Failed to load artifacts: " ++ why.message wording)
  | unread {registry : Registry} {why : DiskError}
    (hload : Registry.load disk directory = .ok registry)
    (hread : disk.readText input = .error why) :
    Fails 1 ("Failed to read " ++ input ++ ": " ++ why.message)
  | unparsed {registry : Registry} {text : String} {why : ReadError}
    (hload : Registry.load disk directory = .ok registry)
    (hread : disk.readText input = .ok text) (hparse : Description.parse text = .error why) :
    Fails 1 ("Invalid job description: "
      ++ wording.message Description.recordName text why)
  | refused {registry : Registry} {text : String} {d : Description} {why : Refusal}
    (hload : Registry.load disk directory = .ok registry)
    (hread : disk.readText input = .ok text) (hparse : Description.parse text = .ok d)
    (hrender : d.render registry = .error (.refused why)) : Fails 2 why.message

end

variable {wording : Wording} {disk : Disk Id} {directory input : String}

/-- Rendering meets no breach, so every job is rendered or fails. -/
theorem renders_or_fails (wording : Wording) (disk : Disk Id) (directory input : String) :
    (∃ d document, Renders disk directory input d document) ∨
      ∃ code message, Fails wording disk directory input code message := by
  cases hload : (Registry.load disk directory : Except LoadError Registry) with
  | error why => exact .inr ⟨1, _, .unloaded hload⟩
  | ok registry =>
    cases hread : (disk.readText input : Except DiskError String) with
    | error why => exact .inr ⟨1, _, .unread hload hread⟩
    | ok text =>
      cases hparse : Description.parse text with
      | error why => exact .inr ⟨1, _, .unparsed hload hread hparse⟩
      | ok d =>
        have hrender := d.render_of_check registry
        cases hcheck : d.check registry with
        | ok u =>
          rw [hcheck] at hrender
          exact .inl ⟨d, _, registry, text, hload, hread, hparse, hrender⟩
        | error why =>
          rw [hcheck] at hrender
          exact .inr ⟨2, _, .refused hload hread hparse hrender⟩

namespace Command

/-- The requests that render the description of a file. -/
inductive View (input : String) : Request → Prop where
  | render (json echo : Bool) : View input (.render input json echo)
  | hash : View input (.hash input)

theorem run_of_load {registry : Registry} (hload : Registry.load disk directory = .ok registry)
    (request : Request) :
    Command.run wording disk ⟨directory, request⟩ = request.run wording disk registry := by
  unfold Command.run
  simp only [bind, pure]
  rw [hload]

theorem run_of_unloaded {why : LoadError} (hload : Registry.load disk directory = .error why)
    (request : Request) : Command.run wording disk ⟨directory, request⟩ =
      .failure 1 ("Failed to load artifacts: " ++ why.message wording) := by
  unfold Command.run
  simp only [bind, pure]
  rw [hload]

end Command

namespace Request

variable (wording : Wording) (registry : Registry) (path : String)
  (report : Description → String → Report)

theorem withDocument_of_unread (why : DiskError) :
    withDocument wording registry path (.error why) report =
      .failure 1 ("Failed to read " ++ path ++ ": " ++ why.message) := rfl

theorem withDocument_of_unparsed {text : String} {why : ReadError}
    (hparse : Description.parse text = .error why) :
    withDocument wording registry path (.ok text) report =
      .failure 1 ("Invalid job description: "
        ++ wording.message Description.recordName text why) := by
  have hdescription : description wording path (.ok text) =
      (Description.parse text).mapError fun why =>
        "Invalid job description: " ++ wording.message Description.recordName text why := rfl
  rw [withDocument, hdescription, hparse]
  rfl

theorem withDocument_of_parsed {text : String} {d : Description}
    (hparse : Description.parse text = .ok d) :
    withDocument wording registry path (.ok text) report =
      match d.render registry with
      | .error why => .failure 2 why.message
      | .ok document => report d document := by
  have hdescription : description wording path (.ok text) =
      (Description.parse text).mapError fun why =>
        "Invalid job description: " ++ wording.message Description.recordName text why := rfl
  rw [withDocument, hdescription, hparse]
  rfl

end Request

namespace Command

/-- A failure is the same whatever is asked for. -/
theorem run_of_fails {code : UInt8} {message : String}
    (h : Fails wording disk directory input code message) {request : Request}
    (hview : View input request) :
    Command.run wording disk ⟨directory, request⟩ = .failure code message := by
  obtain ⟨report, hrun⟩ : ∃ report, ∀ registry, request.run wording disk registry =
      Request.withDocument wording registry input (disk.readText input) report := by
    cases hview with
    | render json echo => exact ⟨_, fun _ => rfl⟩
    | hash => exact ⟨_, fun _ => rfl⟩
  cases h with
  | unloaded hload => exact run_of_unloaded hload request
  | unread hload hread => rw [run_of_load hload, hrun, hread, Request.withDocument_of_unread]
  | unparsed hload hread hparse =>
    rw [run_of_load hload, hrun, hread, Request.withDocument_of_unparsed _ _ _ _ hparse]
  | refused hload hread hparse hrender =>
    rw [run_of_load hload, hrun, hread, Request.withDocument_of_parsed _ _ _ _ hparse, hrender]
    rfl

variable {d : Description} {document : String}

theorem run_render_of_renders (h : Renders disk directory input d document) (json echo : Bool) :
    Command.run wording disk ⟨directory, .render input json echo⟩ =
      Request.renderReport json echo d document := by
  obtain ⟨registry, text, hload, hread, hparse, hrender⟩ := h
  rw [run_of_load hload]
  show Request.withDocument wording registry input (disk.readText input) _ = _
  rw [hread, Request.withDocument_of_parsed _ _ _ _ hparse, hrender]

theorem run_hash_of_renders (h : Renders disk directory input d document) :
    Command.run wording disk ⟨directory, .hash input⟩ = ⟨0, fingerprint document ++ "\n", ""⟩ := by
  obtain ⟨registry, text, hload, hread, hparse, hrender⟩ := h
  rw [run_of_load hload]
  show Request.withDocument wording registry input (disk.readText input) _ = _
  rw [hread, Request.withDocument_of_parsed _ _ _ _ hparse, hrender]

theorem code_of_renders (h : Renders disk directory input d document) {request : Request}
    (hview : View input request) : (Command.run wording disk ⟨directory, request⟩).code = 0 := by
  cases hview with
  | render json echo => rw [run_render_of_renders h]; rfl
  | hash => rw [run_hash_of_renders h]

theorem code_eq_zero_iff {request : Request} (hview : View input request) :
    (Command.run wording disk ⟨directory, request⟩).code = 0 ↔
      ∃ d document, Renders disk directory input d document := by
  refine ⟨fun hcode => ?_, fun ⟨d, document, h⟩ => code_of_renders h hview⟩
  obtain hrenders | ⟨code, message, hfails⟩ := renders_or_fails wording disk directory input
  · exact hrenders
  · rw [run_of_fails hfails hview] at hcode
    cases hfails <;> cases hcode

/-- A view ends with another code exactly if the job fails with it. -/
theorem code_eq_iff {request : Request} (hview : View input request) {code : UInt8}
    (hcode : code ≠ 0) :
    (Command.run wording disk ⟨directory, request⟩).code = code ↔
      ∃ message, Fails wording disk directory input code message := by
  refine ⟨fun h => ?_, fun ⟨message, hfails⟩ => by rw [run_of_fails hfails hview]; rfl⟩
  obtain ⟨d, document, hrenders⟩ | ⟨other, message, hfails⟩ :=
    renders_or_fails wording disk directory input
  · exact absurd ((code_of_renders hrenders hview).symm.trans h).symm hcode
  · rw [run_of_fails hfails hview] at h
    cases h
    exact ⟨message, hfails⟩

/-- All views end with the same code. -/
theorem code_eq_of_views {request request' : Request} (hview : View input request)
    (hview' : View input request') :
    (Command.run wording disk ⟨directory, request⟩).code =
      (Command.run wording disk ⟨directory, request'⟩).code := by
  obtain ⟨d, document, h⟩ | ⟨code, message, h⟩ := renders_or_fails wording disk directory input
  · rw [code_of_renders h hview, code_of_renders h hview']
  · rw [run_of_fails h hview, run_of_fails h hview']

/-! ## A disk with jobs -/

/-- A job with one task, in which a package stands. -/
def packagingJson (id : String) : Json :=
  .object [("job", .string "j"), ("stanzas", .array [.object [("stanza", .string "group"),
    ("name", .string "g"), ("children", .array [.object [("stanza", .string "task"),
      ("name", .string "t"), ("children", .array [.object [("stanza", .string "package"),
        ("value", .string id)]])]])]])]

/-- The job as it is read. -/
def packaging (id : String) : Description :=
  ⟨"j", [{ stanza := "group", name := some "g", children := [
    { stanza := "task", name := some "t", children := [
      { stanza := "package", value := some (.text id) }] }] }]⟩

theorem parse_packagingJson (id : String) :
    Description.parse (packagingJson id).text = .ok (packaging id) := by
  have hplain : (packagingJson id).Plain maxDepth := by
    simp [packagingJson, Json.Plain, Json.AllPlain, Json.MembersPlain, maxDepth]
  rw [Description.parse, parse_text hplain]
  rfl

/-- The document of the job, if the package has a source and nothing else. -/
def packagingDocument (source : String) : String :=
  "job \"j\" \x7b\n  group \"g\" \x7b\n    task \"t\" \x7b\n      driver = \"exec\"\n\n"
    ++ "      artifact \x7b\n        source = " ++ Text.quote source
    ++ "\n      \x7d\n    \x7d\n  \x7d\n\x7d\n"

/-- The words of a reader for a text of one line that breaks off. -/
def cutShort : Wording where
  malformed _ text := "EOF while parsing a value at line 1 column " ++ toString text.length
  place _ _ := ""

/-- A job whose package is known, one whose package is not, one that breaks off, and an artifact
whose file is empty. -/
def desk : Disk Id :=
  .holding [("artifacts", ["tool.json"]), ("broken", ["cut.json"])]
    [("artifacts/tool.json", (Registry.toolJson "s").text), ("broken/cut.json", ""),
      ("job.json", (packagingJson "tool").text), ("unknown.json", (packagingJson "saw").text),
      ("cut.json", "\x7b\"job\":")]

/-- The artifacts of the desk. -/
def deskTools : Registry := ⟨[("tool", Registry.fetched "s")]⟩

theorem load_desk : Registry.load desk "artifacts" = .ok deskTools := by
  have htool : desk.definition "artifacts" "tool.json" = .ok ⟨"tool", Registry.fetched "s"⟩ := by
    rw [desk, Disk.definition_holding rfl (by decide) rfl, Registry.parse_toolJson]
    rfl
  have hext : Disk.HasExtension "json" "tool.json" := ⟨by decide, "tool", by decide, rfl⟩
  rw [Registry.load_of_singleton rfl rfl hext, htool]
  rfl

theorem renders_desk :
    Renders desk "artifacts" "job.json" (packaging "tool") (packagingDocument "s") := by
  have hcheck : (packaging "tool").check deskTools = .ok () := rfl
  refine ⟨deskTools, _, load_desk, Disk.readText_holding rfl, parse_packagingJson "tool", ?_⟩
  rw [Description.render_of_check, hcheck]
  rfl

theorem fails_desk_unknown :
    Fails cutShort desk "artifacts" "unknown.json" 2 "Unknown package ID 'saw'" := by
  have hread : desk.readText "unknown.json" = .ok (packagingJson "saw").text :=
    Disk.readText_holding rfl
  have hcheck : (packaging "saw").check deskTools = .error (.unknownArtifact "saw") := rfl
  have hrender : (packaging "saw").render deskTools =
      .error (.refused (.unknownArtifact "saw")) := by
    rw [Description.render_of_check, hcheck]
  exact .refused load_desk hread (parse_packagingJson "saw") hrender

theorem fails_desk_cut : Fails cutShort desk "artifacts" "cut.json" 1
    "Invalid job description: EOF while parsing a value at line 1 column 7" := by
  have hread : desk.readText "cut.json" = .ok "\x7b\"job\":" := Disk.readText_holding rfl
  have htext : Reading.ofText "\x7b\"job\":" =
    (.object (.member (some "job") .broken .broken), true) := by cbv
  have hparse : Description.parse "\x7b\"job\":" = .error .malformed := by
    rw [Description.parse, parse, htext]
    rfl
  exact .unparsed load_desk hread hparse

theorem fails_desk_broken : Fails cutShort desk "broken" "job.json" 1
    ("Failed to load artifacts: Invalid artifact definition in broken/cut.json: "
      ++ "EOF while parsing a value at line 1 column 0") := by
  have htext : Reading.ofText "" = (.broken, true) := by cbv
  have hcut : desk.definition "broken" "cut.json" =
      .error (.invalid "broken/cut.json" "" .malformed) := by
    rw [desk, Disk.definition_holding rfl (by decide) rfl, parse, htext]
    rfl
  have hext : Disk.HasExtension "json" "cut.json" := ⟨by decide, "cut", by decide, rfl⟩
  have hload : Registry.load desk "broken" = .error (.invalid "broken/cut.json" "" .malformed) := by
    rw [Registry.load_of_singleton rfl rfl hext, hcut]
    rfl
  exact .unloaded hload

/-! ## Agreement -/

/-- **The views of a job agree.**  All of them end with the same code: nought if the job is
rendered, and otherwise that of the step that fails first, of which loading the artifacts is the
first.  A document is shown as it is, or in an envelope that is decoded to it and its fingerprint,
and on the error stream as well if that is asked for; the hash is its fingerprint.  Of a job that
fails every view writes the same line, which is decoded to the message of the failure, and nothing
else, whatever words the reader of texts has for it.  All this holds of the command lines that ask
for the views. -/
theorem views_agree (wording : Wording) (otherwise : List String → Report) (disk : Disk Id)
    (directory input : String) :
    let run := fun request => Command.run wording disk ⟨directory, request⟩
    (∀ request, View input request →
      (∀ request', View input request' → (run request).code = (run request').code) ∧
      ((run request).code = 0 ↔ ∃ d document, Renders disk directory input d document) ∧
      ((run request).code = 1 ↔ ∃ message, Fails wording disk directory input 1 message) ∧
      ((run request).code = 2 ↔ ∃ message, Fails wording disk directory input 2 message) ∧
      (run request).code ∈ [0, 1, 2]) ∧
    (∀ d document, Renders disk directory input d document →
      (∀ echo, (run (.render input false echo)).output = document) ∧
      run (.hash input) = ⟨0, Sha256.hex document.toUTF8.toList ++ "\n", ""⟩ ∧
      (∀ echo, ∃ j, parse Reading.decodeJson (run (.render input true echo)).output = .ok j ∧
        j.get? "document" = some (.string document) ∧
        j.get? "document_hash" = some (.string (Sha256.hex document.toUTF8.toList))) ∧
      ∀ json echo, (run (.render input json echo)).errors = if echo then document else "") ∧
    (∀ code message, Fails wording disk directory input code message →
      ∃ line j, '\n' ∉ line.toList ∧ parse Reading.decodeJson (line ++ "\n") = .ok j ∧
        j.get? "success" = some (.bool false) ∧ j.get? "error" = some (.string message) ∧
        ∀ request, View input request → run request = ⟨code, line ++ "\n", ""⟩) ∧
    ∀ request, View input request → directory ≠ "" → input ≠ "" →
      runArguments wording otherwise disk (words ⟨directory, request⟩) = run request := by
  intro run
  refine ⟨fun request hview => ⟨fun request' hview' => code_eq_of_views hview hview',
      code_eq_zero_iff hview, code_eq_iff hview (by decide), code_eq_iff hview (by decide), ?_⟩,
    fun d document h => ⟨fun echo => ?_, run_hash_of_renders h, fun echo => ?_,
      fun json echo => ?_⟩,
    fun code message h => ?_, fun request hview hdirectory hinput => ?_⟩
  · obtain ⟨d, document, h⟩ | ⟨code, message, h⟩ := renders_or_fails wording disk directory input
    · rw [show (run request).code = 0 from code_of_renders h hview]
      decide
    · rw [show run request = _ from run_of_fails h hview]
      show code ∈ [0, 1, 2]
      cases h <;> decide
  · show (Command.run wording disk _).output = document
    rw [run_render_of_renders h]
    rfl
  · refine ⟨(envelope d.job document).sorted, ?_, rfl, rfl⟩
    show parse _ (Command.run wording disk _).output = _
    rw [run_render_of_renders h]
    exact parse_envelope_line d.job document
  · show (Command.run wording disk _).errors = _
    rw [run_render_of_renders h]
    rfl
  · exact ⟨(failureJson message).text, failureJson message,
      Json.newline_not_mem_text _ _ (failureJson_plain message),
      parse_failure_line message, rfl, rfl, fun request hview =>
        (run_of_fails h hview).trans (Report.failure_eq code message)⟩
  · have hnamed : Named request := by
      cases hview <;> exact hinput
    have hread : ofArguments? (words ⟨directory, request⟩) = some ⟨directory, request⟩ :=
      ofArguments?_words hdirectory hnamed
    rw [runArguments, hread]

theorem views_agree_at_desk :
    let otherwise := fun _ => Report.mk 2 "" ""
    let run := fun directory request => Command.run cutShort desk ⟨directory, request⟩
    let document := packagingDocument "s"
    let hash := Sha256.hex document.toUTF8.toList
    let fails := fun directory input code message =>
      ∃ line j, '\n' ∉ line.toList ∧ parse Reading.decodeJson (line ++ "\n") = .ok j ∧
        j.get? "success" = some (.bool false) ∧ j.get? "error" = some (.string message) ∧
        ∀ request, View input request → run directory request = ⟨code, line ++ "\n", ""⟩
    ((run "artifacts" (.render "job.json" true true)).code = 0 ∧
      (run "artifacts" (.render "job.json" false false)).output = document ∧
      (run "artifacts" (.render "job.json" false true)).errors = document ∧
      run "artifacts" (.hash "job.json") = ⟨0, hash ++ "\n", ""⟩ ∧
      (∃ j, parse Reading.decodeJson (run "artifacts" (.render "job.json" true false)).output =
          .ok j ∧
        j.get? "document" = some (.string document) ∧
        j.get? "document_hash" = some (.string hash)) ∧
      runArguments cutShort otherwise desk
          ["--artifacts-dir=artifacts", "render", "--input=job.json", "--json"] =
        run "artifacts" (.render "job.json" true false)) ∧
    fails "artifacts" "unknown.json" 2 "Unknown package ID 'saw'" ∧
    fails "artifacts" "cut.json" 1
      "Invalid job description: EOF while parsing a value at line 1 column 7" ∧
    fails "broken" "job.json" 1 ("Failed to load artifacts: Invalid artifact definition in "
      ++ "broken/cut.json: EOF while parsing a value at line 1 column 0") := by
  intro otherwise run document hash fails
  obtain ⟨hcodes, hshown, -, hwords⟩ := views_agree cutShort otherwise desk "artifacts" "job.json"
  obtain ⟨houtput, hhash, henvelope, herrors⟩ := hshown _ _ renders_desk
  obtain ⟨-, -, hunknown, -⟩ := views_agree cutShort otherwise desk "artifacts" "unknown.json"
  obtain ⟨-, -, hcut, -⟩ := views_agree cutShort otherwise desk "artifacts" "cut.json"
  obtain ⟨-, -, hbroken, -⟩ := views_agree cutShort otherwise desk "broken" "job.json"
  have hline : words ⟨"artifacts", .render "job.json" true false⟩ =
    ["--artifacts-dir=artifacts", "render", "--input=job.json", "--json"] := by decide
  refine ⟨⟨?_, houtput false, herrors false true, hhash, henvelope false, ?_⟩, ?_, ?_, ?_⟩
  · exact (hcodes _ (.render true true)).2.1.2 ⟨_, _, renders_desk⟩
  · rw [← hline]
    exact hwords _ (.render true false) (by decide) (by decide)
  · exact hunknown 2 _ fails_desk_unknown
  · exact hcut 1 _ fails_desk_cut
  · exact hbroken 1 _ fails_desk_broken

end Command

end JobFile
