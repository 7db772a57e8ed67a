import JobFile.Proofs.Layout.Avoiding
import JobFile.Proofs.Layout.Emission
import JobFile.Proofs.Layout.Program

/-!
# Where a job opens

* `Move`               : a call of the catalog, or one that writes to the draft directly;
* `Move.script`        : the script of such calls in a row;
* `Move.NeverStarts`   : a call opens no block of a keyword and leaves it open;
* `Stanza.write_avoids` and its like : the catalog opens no block of the keyword that stands for the
  document;
* `Move.job_opens_at_root` : a job opens where no block is open, and in a block that is called like
  the document.

The check of a place compares keywords.  So a block that carries the keyword of the document passes
for it, and only a direct call can open one and leave it open.
-/

namespace JobFile

/-- A call of the catalog that fills no block with further calls. -/
def Call.IsLeaf : Call → Prop
  | .scalar _ _ | .textMap _ _ | .config _ _ | .header _ _ | .package _ | .credentials _ _ _ => True
  | _ => False

/-- A call: of the catalog, with the calls that fill its block, or to the draft directly. -/
inductive Move where
  | direct (e : Emission)
  | leaf (c : Call) (h : c.IsLeaf)
  | job (name : String) (body : List Move)
  | stanza (s : Stanza) (label : s.naming.Label) (settings : s.Settings) (body : List Move)
  /-- Calls whose failure ends nothing but themselves. -/
  | caught (body : List Move)

namespace Move

mutual
/-- A call as a step of a script. -/
def action (registry : Registry) : Move → Action
  | .direct e => e.action
  | .leaf c _ => c.action registry
  | .job name body => .step "job" false (Job.write name (script registry body))
  | .stanza s label settings body =>
    .step s.keyword false (s.write label settings (script registry body))
  | .caught body => .step "caught" true (script registry body)
/-- The script of calls in a row. -/
def script (registry : Registry) : List Move → Script
  | [] => []
  | m :: ms => m.action registry :: script registry ms
end

end Move

/-! ## Calls that start no block of a keyword -/

mutual
/-- The call opens no block of the keyword and leaves it open. -/
def Emission.NeverStarts (keyword : String) : Emission → Prop
  | .startBlock k _ => k ≠ keyword
  | .block _ _ body | .caught body => Emission.NeverStart keyword body
  | _ => True
/-- The same for calls in a row. -/
def Emission.NeverStart (keyword : String) : List Emission → Prop
  | [] => True
  | e :: es => e.NeverStarts keyword ∧ Emission.NeverStart keyword es
end

mutual
/-- The call opens no block of the keyword and leaves it open. -/
def Move.NeverStarts (keyword : String) : Move → Prop
  | .direct e => e.NeverStarts keyword
  | .leaf _ _ => True
  | .job _ body | .stanza _ _ _ body | .caught body => Move.NeverStart keyword body
/-- The same for calls in a row. -/
def Move.NeverStart (keyword : String) : List Move → Prop
  | [] => True
  | m :: ms => m.NeverStarts keyword ∧ Move.NeverStart keyword ms
end

namespace Emission

variable {keyword : String}

mutual
theorem action_avoids : ∀ {e : Emission}, e.NeverStarts keyword → e.action.Avoids keyword
  | .line _, _ | .raw _, _ | .emptyBlock _ _, _ | .endBlock _, _ | .fail _, _ => ⟨trivial, trivial⟩
  | .startBlock _ _, h => ⟨h, trivial⟩
  | .block _ _ body, h => ⟨⟨script_avoids h, fun _ => placeless body⟩, trivial⟩
  | .value kind key v, _ =>
    Script.avoids_of_paired (Assign.optional_paired (kind.assign_paired key) v)
      (Assign.optional_placeless (kind.assign_placeless key) v)
  | .requiredValue kind key v, _ =>
    Script.avoids_of_paired (Assign.required_paired (kind.assign_paired key) key v)
      (Assign.required_placeless (kind.assign_placeless key) key v)
  | .anyValue key v, _ =>
    Script.avoids_of_paired (Assign.optional_paired (Value.assign_paired key) v)
      (Assign.optional_placeless (Value.assign_placeless key) v)
  | .listValue key v, _ =>
    Script.avoids_of_paired (Assign.optional_paired (Value.assignList_paired key) v)
      (Assign.optional_placeless (Value.assignList_placeless key) v)
  | .caught _, h => script_avoids h
theorem script_avoids : ∀ {es : List Emission}, NeverStart keyword es →
    Script.Avoids keyword (script es)
  | [], _ => trivial
  | _ :: _, h => ⟨action_avoids h.1, script_avoids h.2⟩
end

end Emission

/-! ## The catalog opens no block that is called like the document -/

theorem Field.assign_placeless (f : Field) (value : Option f.kind.Carrier) :
    Script.Placeless (f.assign value) := by
  unfold Field.assign
  split
  · exact Assign.required_placeless (f.kind.assign_placeless f.name) f.name _
  · exact Assign.optional_placeless (f.kind.assign_placeless f.name) _

theorem Record.assignments_avoid {keyword : String} : ∀ {fs : List Field} (r : Record fs),
    ∀ s ∈ r.assignments, Script.Avoids keyword s
  | [], .nil, s, hs => by cases hs
  | f :: _, .cons slot rest, s, hs => by
    rcases List.mem_cons.1 hs with rfl | hs
    · exact Script.avoids_of_paired (f.assign_paired _) (f.assign_placeless _)
    · exact rest.assignments_avoid s hs

theorem Stanza.keyword_ne_root (s : Stanza) : s.keyword ≠ Context.root := by
  cases s <;> decide

/-- A block of the catalog avoids the keyword of the document if what stands in it does. -/
theorem Stanza.write_avoids (s : Stanza) (label : s.naming.Label) (settings : s.Settings)
    {body : Script} (h : Script.Avoids Context.root body) :
    Script.Avoids Context.root (s.write label settings body) := by
  have hcheck : Script.Avoids Context.root settings.check :=
    Script.avoids_of_checks settings.check_isCheck
  have hassignments : Script.Avoids Context.root (s.arrange settings.assignments).flatten :=
    Script.avoids_flatten fun t ht => settings.assignments_avoid t ((s.mem_arrange _ t).1 ht)
  refine ⟨trivial, Script.avoids_append.2 ⟨hcheck, ?_⟩⟩
  split
  · exact ⟨trivial, trivial⟩
  · exact ⟨⟨Script.avoids_append.2 ⟨hassignments, h⟩,
      fun hroot => absurd hroot s.keyword_ne_root⟩, trivial⟩

theorem Config.writeDefault_placeless (values : Entries Value) :
    Script.Placeless (Config.writeDefault values) := by
  unfold Config.writeDefault
  split
  · exact ⟨trivial, trivial⟩
  · refine Script.placeless_append.2 ⟨?_, ?_⟩
    · split <;> exact ⟨trivial, trivial⟩
    · exact Assign.optional_placeless (Value.assignList_placeless "args") _

theorem Config.write_avoids {keyword : String} (driver : String) (values : Entries Value) :
    Script.Avoids keyword (Config.write driver values) := by
  have hblock : Script.Placeless
      (if driver = standardDriver then writeDefault values else Value.assignAll values) := by
    split
    · exact writeDefault_placeless values
    · exact Value.assignAll_placeless values
  exact ⟨trivial, Script.avoids_of_paired (Config.write_paired driver values).2 ⟨hblock, trivial⟩⟩

theorem Registry.package_avoids (r : Registry) (id : String) :
    Script.Avoids Context.root (r.package id) := by
  unfold Registry.package
  split
  · exact Stanza.artifact.write_avoids () _ trivial
  · exact ⟨trivial, trivial⟩

theorem Call.leaf_avoids (registry : Registry) {c : Call} (h : c.IsLeaf) :
    (c.action registry).Avoids Context.root := by
  cases c with
  | scalar s value =>
    exact ⟨trivial, Script.avoids_append.2
      ⟨Script.avoids_of_checks (s.field.check_isCheck (some value)),
        Script.avoids_of_paired (s.field.assign_paired _) (s.field.assign_placeless _)⟩⟩
  | textMap m entries =>
    exact ⟨trivial, Script.avoids_of_paired (m.write_paired entries).2
      (Assign.textMap_placeless m.keyword entries)⟩
  | config driver values => exact Config.write_avoids driver values
  | header name values =>
    exact ⟨trivial, Script.avoids_of_paired (Header.write_paired name values).2
      ⟨⟨trivial, trivial⟩, trivial⟩⟩
  | package id => exact registry.package_avoids id
  | credentials c name paths => exact Stanza.template.write_avoids () _ trivial
  | _ => exact h.elim

namespace Move

mutual
theorem action_avoids (registry : Registry) : ∀ {m : Move}, m.NeverStarts Context.root →
    (m.action registry).Avoids Context.root
  | .direct _, h => Emission.action_avoids h
  | .leaf _ hleaf, _ => Call.leaf_avoids registry hleaf
  | .job _ _, h =>
    ⟨trivial, ⟨script_avoids registry h, fun hroot => absurd hroot (by decide)⟩, trivial⟩
  | .stanza s label settings _, h => s.write_avoids label settings (script_avoids registry h)
  | .caught _, h => script_avoids registry h
theorem script_avoids (registry : Registry) : ∀ {ms : List Move}, NeverStart Context.root ms →
    Script.Avoids Context.root (script registry ms)
  | [], _ => trivial
  | _ :: _, h => ⟨action_avoids registry h.1, script_avoids registry h.2⟩
end

end Move

/-! ## Where a job opens -/

/-- The innermost block passes for the document if there is none, or if it is called like it. -/
theorem Context.current_eq_root_iff (c : Context) :
    c.current = root ↔ c.depth = 0 ∨ c.opened.head? = some root := by
  obtain ⟨opened⟩ := c
  cases opened <;> simp [current, depth]

namespace Job

variable {d : Draft} (name : String) (body : Script)

theorem run_of_root (hd : d.Aligned) (h : d.context.current = Context.root) :
    (Action.step "job" false (write name body)).run d =
      (Script.run body (d.opened "job" (some name))).closing "job" := by
  have hallow : d.context.allow "job" [Context.root] = .ok () :=
    if_pos (List.mem_singleton.2 h)
  rw [Action.run, Outcome.caughtIf_false, write, Script.run, Action.run, hallow]
  show (Script.run [.block "job" (some name) body] d) = _
  rw [Script.run, Action.run, Draft.startBlock_eq_opened hd]
  exact Outcome.andThen_done _

theorem run_of_ne_root (h : d.context.current ≠ Context.root) :
    (Action.step "job" false (write name body)).run d =
        .failed d (.misplaced "job" [Context.root]) ∧
      (Action.step "job" false (write name body)).visits d =
        [(.step "job" false (write name body), d), (.within "job" [Context.root], d)] := by
  have hrefused : (Action.within "job" [Context.root]).run d =
      .failed d (.misplaced "job" [Context.root]) := by
    have hallow : d.context.allow "job" [Context.root] = .error (.misplaced "job" [Context.root]) :=
      if_neg fun hmem => h (List.mem_singleton.1 hmem)
    rw [Action.run, hallow]
  constructor
  · rw [Action.run, Outcome.caughtIf_false, write, Script.run, hrefused]
    rfl
  · rw [Action.visits, write, Script.visits, hrefused]
    rfl

end Job

namespace Move

/-- **A job opens where no block is open, and in a block that is called like the document.**
Anywhere else it is refused for its place: the draft stays as it was, and its body is not come to.
So it is wherever calls in a row come to a job, in the blocks of the catalog and in those that they
open themselves.  If they start no block that is called like the document, none is open there, and
the job opens only where no block is open. -/
theorem job_opens_at_root (registry : Registry) {session : List Move} {name : String}
    {body : List Move} {d : Draft}
    (hvisit : ((Move.job name body).action registry, d) ∈
      Script.visits (script registry session) {}) :
    (d.context.depth = 0 ∨ d.context.opened.head? = some Context.root →
      ((Move.job name body).action registry).run d =
        (Script.run (script registry body) (d.opened "job" (some name))).closing "job") ∧
    (¬(d.context.depth = 0 ∨ d.context.opened.head? = some Context.root) →
      ((Move.job name body).action registry).run d =
          .failed d (.misplaced "job" [Context.root]) ∧
        ((Move.job name body).action registry).visits d =
          [((Move.job name body).action registry, d), (.within "job" [Context.root], d)]) ∧
    (NeverStart Context.root session → Context.root ∉ d.context.opened) := by
  have haligned : d.Aligned := Script.visits_find_aligned _ {} rfl _ hvisit
  rw [← Context.current_eq_root_iff]
  refine ⟨Job.run_of_root name _ haligned, Job.run_of_ne_root name _, fun hnever => ?_⟩
  have hstart : ({} : Draft).OpensAtMost Context.root 0 := ⟨rfl, Nat.le_refl 0⟩
  -- A job asks for its place, so no block of the keyword is open where it does.
  rcases Script.visits_open (script_avoids registry hnever) hstart _ hvisit with hplaceless | hopen
  · exact hplaceless.1.elim
  · exact List.count_eq_zero.1 (Nat.le_zero.1 hopen.count)

/-- A job inside a block that is opened directly, and one after it. -/
def jobsAround : List Move :=
  [.direct (.startBlock "group" none), .caught [.job "a" []], .direct (.endBlock "group"),
    .job "b" []]

theorem job_opens_at_root_around :
    let inside : Draft := ⟨"group \x7b\n", 1, true, ⟨["group"]⟩⟩
    let after : Draft := ⟨"group \x7b\n\x7d\n", 0, false, ⟨[]⟩⟩
    NeverStart Context.root jobsAround ∧
      ((Move.job "a" []).action {}, inside) ∈ Script.visits (script {} jobsAround) {} ∧
      ((Move.job "a" []).action {}).run inside = .failed inside (.misplaced "job" ["root"]) ∧
      ((Move.job "b" []).action {}, after) ∈ Script.visits (script {} jobsAround) {} ∧
      Context.root ∉ after.context.opened ∧
      ((Move.job "b" []).action {}).run after =
        .done ⟨"group \x7b\n\x7d\n\njob \"b\" \x7b\n\x7d\n", 0, false, ⟨[]⟩⟩ := by
  intro inside after
  have hnever : NeverStart Context.root jobsAround := by
    refine ⟨?_, ⟨trivial, trivial⟩, trivial, trivial, trivial⟩
    show "group" ≠ Context.root
    decide
  have hinside : ((Move.job "a" []).action {}, inside) ∈ Script.visits (script {} jobsAround) {} :=
    List.mem_of_getElem? (i := 3) rfl
  have hafter : ((Move.job "b" []).action {}, after) ∈ Script.visits (script {} jobsAround) {} :=
    List.mem_of_getElem? (i := 7) rfl
  obtain ⟨-, hrefused, -⟩ := job_opens_at_root {} hinside
  obtain ⟨hopens, -, hnone⟩ := job_opens_at_root {} hafter
  exact ⟨hnever, hinside, (hrefused (by decide)).1, hafter, hnone hnever, hopens (by decide)⟩

/-- A block is opened that is called like the document, and a job in it. -/
def jobInRoot : List Move := [.direct (.startBlock "root" none), .job "j" []]

/-- The job opens although a block is open. -/
theorem job_opens_in_root :
    let d : Draft := ⟨"root \x7b\n", 1, true, ⟨["root"]⟩⟩
    ((Move.job "j" []).action {}, d) ∈ Script.visits (script {} jobInRoot) {} ∧
      d.context.depth = 1 ∧
      ((Move.job "j" []).action {}).run d =
        .done ⟨"root \x7b\n  job \"j\" \x7b\n  \x7d\n", 1, false, ⟨["root"]⟩⟩ := by
  refine ⟨List.mem_of_getElem? (i := 2) rfl, rfl, rfl⟩

end Move

end JobFile
