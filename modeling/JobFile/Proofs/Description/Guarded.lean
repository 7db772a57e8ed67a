import JobFile.Proofs.Description.Agreement
import JobFile.Proofs.Description.Refused

/-!
# Places are checked first

* `Refusal.IsMisplaced`  : a stanza stands in the wrong block;
* `PlaceFree`            : a check that refuses nothing for its place;
* `Written.Blames`       : what is refused for its place is refused inside;
* `Stanza.write_blames`  : a block in its place blames what stands in it;
* `Call.place?`          : the stanza of a call, and where it may stand;
* `Call.place_checked_first` : elsewhere a call is refused for its place, and does nothing.

A package is the exception: whether it is registered is asked before its place.
-/

namespace JobFile

/-- A stanza stands in the wrong block. -/
def Refusal.IsMisplaced : Refusal → Prop
  | .misplaced _ _ => True
  | _ => False

/-! ## Checks of something else than a place -/

/-- A check that refuses nothing for its place. -/
def PlaceFree (check : Except Refusal Unit) : Prop := FailsOnly (fun why => ¬why.IsMisplaced) check

theorem Refusal.IsOfData.not_isMisplaced : ∀ why : Refusal, why.IsOfData → ¬why.IsMisplaced
  | .misplaced .., h => h.elim
  | .missingValue .., _ | .unsupportedKind .., _ | .invalidChoice .., _ | .unknownField .., _
  | .unknownArtifact .., _ | .unknownStanza .., _ | .invalidOptions .., _ => not_false

/-- The checks of data ask for no place. -/
theorem FailsOnly.placeFree {check : Except Refusal Unit} (h : FailsOnly Refusal.IsOfData check) :
    PlaceFree check :=
  h.mono Refusal.IsOfData.not_isMisplaced

theorem placeFree_checkPlace {stanza parent : String} {allowed : List String}
    (h : parent ∈ allowed) : PlaceFree (checkPlace stanza allowed parent) := by
  rw [checkPlace, if_pos h]
  exact failsOnly_ok ()

/-! ## What is refused inside -/

namespace Written

/-- What is refused for its place is refused inside already. -/
def Blames (inner w : Written) : Prop :=
  ∀ why, w.refusal = some why → why.IsMisplaced → inner.refusal = some why

variable {inner v w : Written}

theorem blames_self (w : Written) : w.Blames w := fun _ h _ => h

theorem Agrees.blames {check : Except Refusal Unit} {items : List Item} (h : w.Agrees check items)
    (hcheck : PlaceFree check) (inner : Written) : inner.Blames w := by
  intro why hwhy hplace
  cases check with
  | ok u =>
    cases (h : w = ⟨items, none⟩)
    cases hwhy
  | error _ =>
    cases (h : w.refusal = some _).symm.trans hwhy
    exact absurd hplace (hcheck why rfl)

theorem Blames.andThen (hv : inner.Blames v) (hw : inner.Blames w) :
    inner.Blames (v.andThen w) := by
  obtain ⟨items, refusal⟩ := v
  cases refusal with
  | none => exact hw
  | some why => exact hv

theorem Blames.enclosed (h : inner.Blames w) (keyword : String) (name : Option String) :
    inner.Blames (w.enclosed keyword name) := h

end Written

/-- A block in its place is refused for a place only if something inside it is. -/
theorem Stanza.write_blames {parent : String} (s : Stanza) (label : s.naming.Label)
    (settings : s.Settings) (body : Script) (h : parent ∈ s.parents) :
    (Script.written s.keyword body).Blames
      (Script.written parent (s.write label settings body)) := by
  have hplace := (Script.place_agrees s.keyword s.parents).blames (placeFree_checkPlace h)
  have hchoices := (settings.check_agrees parent).blames settings.failsOnly_checkChoices.placeFree
  have hfields := (s.assignments_agrees s.keyword settings).blames
    (settings.failsOnly_checkRequired s.keyword).placeFree
  show Written.Blames _ (Script.written parent ([.within s.keyword s.parents] ++ (_ ++ _)))
  rw [Script.written_append, Script.written_append]
  refine (hplace _).andThen ((hchoices _).andThen ?_)
  split
  · exact nofun
  · rw [Script.written_block, Script.written_append]
    exact ((hfields _).andThen (Written.blames_self _)).enclosed _ _

theorem Job.write_blames (name : String) (body : Script) :
    (Script.written "job" body).Blames (Script.written Context.root (Job.write name body)) := by
  have hplace := (Script.place_agrees "job" [Context.root]).blames
    (placeFree_checkPlace (List.mem_singleton_self Context.root))
  show Written.Blames _ (Script.written _ ([.within "job" [Context.root]] ++ _))
  rw [Script.written_append]
  refine (hplace _).andThen ?_
  rw [Script.written_block]
  exact (Written.blames_self _).enclosed "job" (some name)

/-! ## Calls -/

namespace Call

/-- The stanza that a call of the catalog writes, and the blocks in which it may stand. -/
def place? : Call → Option (String × List String)
  | .scalar s _ => some (s.keyword, Scalar.parents)
  | .job _ _ => some ("job", [Context.root])
  | .stanza s _ _ _ => some (s.keyword, s.parents)
  | .textMap m _ => some (m.keyword, m.parents)
  | .config _ _ => some (Config.keyword, ["task"])
  | .header _ _ => some (Header.keyword, ["check"])
  | .package _ => some (Stanza.artifact.keyword, Stanza.artifact.parents)
  | .credentials _ _ _ => some (Stanza.template.keyword, Stanza.template.parents)
  | _ => none

/-- The calls that fill the block of a call. -/
def body : Call → Program
  | .block _ _ body | .job _ body | .stanza _ _ _ body | .caught body => body
  | _ => []

/-- If the call asks for an artifact, it is registered. -/
def IsKnown (registry : Registry) : Call → Prop
  | .package id => registry.get? id ≠ none
  | _ => True

variable (registry : Registry) {c : Call} {stanza : String} {allowed : List String}

/-- A call checks its place, and then goes on. -/
theorem action_guarded (hplace : c.place? = some (stanza, allowed)) (h : c.IsKnown registry) :
    ∃ label rest, c.action registry = .step label false (.within stanza allowed :: rest) := by
  cases c with
  | package id =>
    cases hplace
    obtain ⟨artifact, hget⟩ := Option.ne_none_iff_exists'.1 h
    rw [action, Registry.package, hget]
    exact ⟨_, _, rfl⟩
  | scalar | job | stanza | textMap | config | header | credentials =>
    cases hplace
    exact ⟨_, _, rfl⟩
  | _ => cases hplace

/-- In its place a call is refused for a place only if something in its block is. -/
theorem action_blames (hplace : c.place? = some (stanza, allowed)) {parent : String}
    (h : parent ∈ allowed) :
    (Script.written stanza (Program.script registry c.body)).Blames
      ((c.action registry).written parent) := by
  cases c with
  | scalar s value =>
    cases hplace
    exact (Scalar.write_agrees parent s value).blames
      ((placeFree_checkPlace h).bind fun _ => (s.field.failsOnly_checkChoice _).placeFree) _
  | job name body =>
    cases hplace
    cases List.mem_singleton.1 h
    exact Job.write_blames name _
  | stanza s label settings body =>
    cases hplace
    exact s.write_blames label settings _ h
  | textMap m es =>
    cases hplace
    exact (m.write_agrees parent es).blames (placeFree_checkPlace h) _
  | config driver values =>
    cases hplace
    exact (Config.write_agrees parent driver values).blames
      ((placeFree_checkPlace h).bind fun _ => (Config.failsOnly_check driver values).placeFree) _
  | header name values =>
    cases hplace
    exact (Header.write_agrees parent name values).blames (placeFree_checkPlace h) _
  | package id =>
    cases hplace
    refine (registry.package_agrees parent id).blames ?_ _
    unfold Registry.checkPackage
    split
    · exact failsOnly_error not_false
    · exact (placeFree_checkPlace h).bind fun _ => (Record.failsOnly_checkRequired _ _).placeFree
  | credentials c name paths =>
    cases hplace
    exact (c.write_agrees parent name paths).blames (placeFree_checkPlace h) _
  | _ => cases hplace

/-- **Where a stanza may stand is checked before anything else.**  In any other block a call is
refused for its place, whatever else is wrong with it: the draft stays as it was, and nothing after
the check is come to.  In its place it is refused for a place only if a call inside its block is.
Of a package alone it is asked first whether it is registered.  So it is in every draft that a run
reaches, for each is aligned (`Script.run_aligned`). -/
theorem place_checked_first (hplace : c.place? = some (stanza, allowed)) {d : Draft}
    (hd : d.Aligned) :
    (c.IsKnown registry → d.context.current ∉ allowed →
      (c.action registry).run d = .failed d (.misplaced stanza allowed) ∧
        (c.action registry).visits d =
          [(c.action registry, d), (.within stanza allowed, d)]) ∧
      (d.context.current ∈ allowed → ∀ e why, (c.action registry).run d = .failed e why →
        why.IsMisplaced → ∃ start left : Draft, start.Aligned ∧
          start.context = d.context.enter stanza ∧
          Script.run (Program.script registry c.body) start = .failed left why) ∧
      ∀ id, c = .package id → registry.get? id = none →
        (c.action registry).run d = .failed d (.unknownArtifact id) := by
  refine ⟨fun hknown hother => ?_, fun hallowed e why hfails hmisplaced => ?_, ?_⟩
  · obtain ⟨label, rest, haction⟩ := action_guarded registry hplace hknown
    have hrefused : d.context.allow stanza allowed = .error (.misplaced stanza allowed) :=
      if_neg hother
    have hrun : (Action.within stanza allowed).run d = .failed d (.misplaced stanza allowed) := by
      rw [Action.run, hrefused]
    rw [haction]
    constructor
    · rw [Action.run, Script.run, hrun]
      rfl
    · rw [Action.visits, Script.visits, hrun]
      rfl
  · rw [Action.run_eq_onto _ d (c.paired registry) hd] at hfails
    have hbody := action_blames registry hplace hallowed why
      (Written.onto_eq_failed_iff.1 hfails).2 hmisplaced
    have hstart := hd.opened stanza none
    have hrun := Script.run_eq_onto _ _ (Program.paired registry c.body) hstart
    exact ⟨_, _, hstart, rfl, hrun.trans (Written.onto_eq_failed_iff.2 ⟨rfl, hbody⟩)⟩
  · rintro id rfl hnone
    rw [action, Registry.package, hnone]
    rfl

theorem place_checked_first_at_root :
    ((scalar .type "nightly").action {}).run {} = .failed {} (.misplaced "type" ["job"]) ∧
      ((job "j" [textMap .environment []]).action {}).run {} =
        .failed (({} : Draft).add [.block "job" (some "j") []]) (.misplaced "env" ["task"]) ∧
      (∃ start left : Draft, start.Aligned ∧ start.context = ⟨["job"]⟩ ∧
        Script.run (Program.script {} [textMap .environment []]) start =
          .failed left (.misplaced "env" ["task"])) ∧
      ((package "nope").action {}).run {} = .failed {} (.unknownArtifact "nope") := by
  obtain ⟨htype, -, -⟩ := place_checked_first {} (c := scalar .type "nightly") rfl (d := {}) rfl
  obtain ⟨-, hjob, -⟩ :=
    place_checked_first {} (c := job "j" [textMap .environment []]) rfl (d := {}) rfl
  obtain ⟨-, -, hpackage⟩ := place_checked_first {} (c := package "nope") rfl (d := {}) rfl
  have hinside : ((job "j" [textMap .environment []]).action {}).run {} =
      .failed (({} : Draft).add [.block "job" (some "j") []]) (.misplaced "env" ["task"]) :=
    Action.run_eq_onto _ {} (Call.paired {} _) rfl
  exact ⟨(htype trivial (by decide)).1, hinside, hjob (by decide) _ _ hinside trivial,
    hpackage "nope" rfl rfl⟩

/-- An artifact that is not registered is refused as such where no artifact may stand. -/
theorem unknown_package_not_misplaced :
    (package "nope").place? = some ("artifact", ["task"]) ∧
      ({} : Draft).context.current ∉ ["task"] ∧
      ((package "nope").action {}).run {} = .failed {} (.unknownArtifact "nope") ∧
      ¬(Refusal.unknownArtifact "nope").IsMisplaced :=
  ⟨rfl, by decide, rfl, not_false⟩

end Call

end JobFile
