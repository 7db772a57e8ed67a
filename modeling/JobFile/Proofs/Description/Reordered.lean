import JobFile.Proofs.Description.Roundtrip
import JobFile.Proofs.Json.Permuted

/-!
# The order of members

* `Region`              : the parts of a description, by what is decoded there;
* `Reading.Reordered`   : a part with the members of its objects in another order, at any depth;
* `Reading.Alike`       : the same is decoded of two readings of a part;
* `Reading.Reordered.alike` : it is, if they are reordered;
* `Description.Reordered` : two texts of which one is reordered as the other;
* `Description.member_order_irrelevant` : both are the same description, or neither is one.

The values of a node, single or by key, keep the order in which they were written, so nothing is
reordered inside them.
-/

namespace JobFile

/-- The parts of a description, by what is decoded there. -/
inductive Region where
  | description
  | nodes
  | node
  /-- A member of a node that is not shared. -/
  | field
  /-- Where nothing is reordered. -/
  | fixed
  deriving DecidableEq, Repr

namespace Region

/-- The part that an item of an array is. -/
def item : Region → Region
  | nodes => node
  | field => field
  | description | node | fixed => fixed

/-- The part that a member of an object is. -/
def member (key : Option String) : Region → Region
  | description => if key = some "stanzas" then nodes else fixed
  | node =>
    if key = some "children" then nodes
    else if key ∈ Node.sharedKeys.map some then fixed
    else field
  | field => field
  | nodes | fixed => fixed

end Region

mutual
/-- The same value with the members of objects in another order. -/
inductive Reading.Reordered : Region → Reading → Reading → Prop
  | same (region : Region) (r : Reading) : Reading.Reordered region r r
  | array {region : Region} {xs ys : Items} (items : Items.Reordered region.item xs ys) :
    Reading.Reordered region (.array xs) (.array ys)
  | object {region : Region} {ms ns ps : Members} (free : region ≠ .fixed)
    (inside : Members.Reordered region ms ns) (order : ns.Permuted ps) :
    Reading.Reordered region (.object ms) (.object ps)
/-- The same items, each of them reordered. -/
inductive Items.Reordered : Region → Items → Items → Prop
  | same (region : Region) (xs : Items) : Items.Reordered region xs xs
  | item {region : Region} {r s : Reading} {xs ys : Items} (head : Reading.Reordered region r s)
    (tail : Items.Reordered region xs ys) : Items.Reordered region (.item r xs) (.item s ys)
/-- The same members in the same order, the value of each of them reordered. -/
inductive Members.Reordered : Region → Members → Members → Prop
  | same (region : Region) (ms : Members) : Members.Reordered region ms ms
  | member {region : Region} {r s : Reading} {ms ns : Members} (key : Option String)
    (value : Reading.Reordered (region.member key) r s) (tail : Members.Reordered region ms ns) :
    Members.Reordered region (.member key r ms) (.member key s ns)
end

/-! ## Below a number of containers -/

namespace Members

theorem entries_limit (depth : Nat) : ∀ ms : Members,
    (ms.limit depth).entries = ms.entries.map fun e => (e.1, e.2.limit depth)
  | .close | .broken => rfl
  | .member _ _ tail => congrArg _ (entries_limit depth tail)

theorem closed_limit (depth : Nat) : ∀ ms : Members, (ms.limit depth).closed = ms.closed
  | .close | .broken => rfl
  | .member _ _ tail => closed_limit depth tail

theorem Permuted.limit {ms ns : Members} (h : ms.Permuted ns) (depth : Nat) :
    (ms.limit depth).Permuted (ns.limit depth) where
  entries := by
    rw [entries_limit, entries_limit]
    exact h.entries.map _
  closed := by rw [closed_limit, closed_limit, h.closed]
  distinct := by
    rw [keys, entries_limit, List.filterMap_map]
    exact h.distinct

end Members

mutual
/-- What is cut off where it is nested too deeply is cut off in both. -/
theorem Reading.Reordered.limit : ∀ {region : Region} {r s : Reading},
    Reading.Reordered region r s →
    ∀ depth, Reading.Reordered region (r.limit depth) (s.limit depth)
  | _, _, _, .same _ _, _ => .same _ _
  | _, _, _, .array _, 0 => .same _ _
  | _, _, _, .array items, depth + 1 => .array (items.limit depth)
  | _, _, _, .object _ _ _, 0 => .same _ _
  | _, _, _, .object free inside order, depth + 1 =>
    .object free (inside.limit depth) (order.limit depth)
theorem Items.Reordered.limit : ∀ {region : Region} {xs ys : Items},
    Items.Reordered region xs ys →
    ∀ depth, Items.Reordered region (xs.limit depth) (ys.limit depth)
  | _, _, _, .same _ _, _ => .same _ _
  | _, _, _, .item head tail, depth => by
    simp only [Items.limit]
    exact .item (head.limit depth) (tail.limit depth)
theorem Members.Reordered.limit : ∀ {region : Region} {ms ns : Members},
    Members.Reordered region ms ns →
    ∀ depth, Members.Reordered region (ms.limit depth) (ns.limit depth)
  | _, _, _, .same _ _, _ => .same _ _
  | _, _, _, .member key value tail, depth => .member key (value.limit depth) (tail.limit depth)
end

/-! ## What a member of a node fills in -/

namespace NodeForm

/-- What a member of a node fills in. -/
inductive Filling where
  | stanza (s : String)
  | name (s : Option String)
  | value (v : Option Value)
  | values (es : Option (Entries Value))
  | children (ns : List Node)
  | field (key : String) (j : Json)

namespace Filling

/-- The key of the member. -/
def key : Filling → String
  | stanza _ => "stanza"
  | name _ => "name"
  | value _ => "value"
  | values _ => "values"
  | children _ => "children"
  | field key _ => key

/-- What is decoded of a member. -/
def of? (key : String) (r : Reading) : Option Filling :=
  match key with
  | "stanza" => r.decodeText.toOption.map stanza
  | "name" => (decodeOptional Reading.decodeText r).toOption.map name
  | "value" => (decodeOptional Value.decode r).toOption.map value
  | "values" => (decodeOptional Value.decodeEntries r).toOption.map values
  | "children" => (Node.decodeList r).toOption.map children
  | _ => r.decodeJson.toOption.map (field key)

/-- The form with the member filled in. -/
def into (d : NodeForm) : Filling → NodeForm
  | stanza s => { d with stanza := some s }
  | name s => { d with name := some s }
  | value v => { d with value := some v }
  | values es => { d with values := some es }
  | children ns => { d with children := some ns }
  | field key j => { d with fields := Json.insert key j d.fields }

theorem key_of {key : String} {r : Reading} {f : Filling} (h : of? key r = some f) :
    f.key = key := by
  unfold of? at h
  split at h <;> obtain ⟨a, -, rfl⟩ := Option.map_eq_some_iff.1 h <;> rfl

/-- Filling in a member leaves open whether the others are filled in. -/
theorem holds_into (d : NodeForm) {f : Filling} {key : String} (hne : f.key ≠ key) :
    (f.into d).holds key = d.holds key := by
  unfold holds
  split <;> cases f <;> first | rfl | exact absurd rfl hne

/-- Members of different keys can be filled in either way round. -/
theorem into_comm (d : NodeForm) {f g : Filling} (hne : f.key ≠ g.key) :
    g.into (f.into d) = f.into (g.into d) := by
  cases f with
  | field k j =>
    cases g with
    | field k' j' =>
      have hfields := Json.insert_comm (Ne.symm hne) j' j d.fields
      exact congrArg (fun fields => { d with fields }) hfields
    | _ => rfl
  | _ => cases g <;> first | rfl | exact absurd rfl hne

end Filling

/-- Fills in a member, if it is decoded and not repeated. -/
def take (key : String) (r : Reading) (d : NodeForm) : Option NodeForm :=
  if d.holds key then none else (Filling.of? key r).map fun f => f.into d

theorem take_of {key : String} {r : Reading} {f : Filling} (h : Filling.of? key r = some f)
    (d : NodeForm) : take key r d = if d.holds key then none else some (f.into d) := by
  rw [take, h, Option.map_some]

theorem take_of_none {key : String} {r : Reading} (h : Filling.of? key r = none) (d : NodeForm) :
    take key r d = none := by
  rw [take, h, Option.map_none, ite_self]

theorem take_commutes : Members.Commutes take := by
  intro k k' r r' d hne
  cases hf : Filling.of? k r with
  | none => simp [take_of_none hf]
  | some f =>
    cases hg : Filling.of? k' r' with
    | none => simp [take_of_none hg]
    | some g =>
      have hfk := Filling.key_of hf
      have hgk := Filling.key_of hg
      have hf' : (f.into d).holds k' = d.holds k' := Filling.holds_into d (hfk ▸ hne)
      have hg' : (g.into d).holds k = d.holds k := Filling.holds_into d (hgk ▸ hne.symm)
      have hboth : g.into (f.into d) = f.into (g.into d) :=
        Filling.into_comm d (by rwa [hfk, hgk])
      simp only [take_of hf, take_of hg]
      cases hk : d.holds k <;> cases hk' : d.holds k' <;> simp [*]

end NodeForm

/-! ## Decoding in steps -/

/-- A member other than the children fills in what is decoded of it. -/
theorem NodeForm.toOption_fill {key : String} (hkey : key ≠ "children") (r : Reading)
    (d : NodeForm) : (d.fill key r).toOption = (Filling.of? key r).map fun f => f.into d := by
  have hmap : ∀ {α : Type} (x : Except ReadError α) (filling : α → Filling),
      (x >>= fun a => pure ((filling a).into d)).toOption =
        (x.toOption.map filling).map fun f => f.into d := by
    intro α x filling
    cases x <;> rfl
  unfold fill
  split
  case h_1 => exact hmap _ .stanza
  case h_2 => exact hmap _ .name
  case h_3 => exact hmap _ .value
  case h_4 => exact hmap _ .values
  case h_5 hstanza hname hvalue hvalues =>
    have hof : Filling.of? key r = r.decodeJson.toOption.map (.field key) := by
      unfold Filling.of?
      split <;> first | rfl | contradiction
    rw [hof]
    exact hmap _ (.field key)

/-- The members of a node are taken one after the other. -/
theorem Node.toOption_decodeMembers : ∀ (ms : Members) (d : NodeForm),
    (decodeMembers d ms).toOption = (ms.gather NodeForm.take d).bind fun d => d.finish.toOption
  | .close, _ | .broken, _ | .member none _ _, _ => rfl
  | .member (some key) value tail, d => by
    have ih := toOption_decodeMembers tail
    rw [decodeMembers, Members.gather, NodeForm.take]
    split
    · rfl
    · split
      · rename_i hkey
        subst hkey
        show (decodeList value >>= _).toOption =
          ((((decodeList value).toOption.map NodeForm.Filling.children).map _).bind _).bind _
        cases decodeList value with
        | error why => rfl
        | ok ns => exact ih _
      · rename_i hkey
        rw [← NodeForm.toOption_fill hkey]
        cases d.fill key value with
        | error why => rfl
        | ok e => exact ih e

namespace Description

/-- The job and the stanzas that have been read so far. -/
abbrev Parts : Type := Option String × Option (List Node)

/-- Takes a member of a description, if it is decoded and not repeated. -/
def take (key : String) (value : Reading) (parts : Parts) : Option Parts :=
  match key with
  | "job" =>
    if parts.1.isSome then none
    else value.decodeText.toOption.map fun job => (some job, parts.2)
  | "stanzas" =>
    if parts.2.isSome then none
    else (Node.decodeList value).toOption.map fun stanzas => (parts.1, some stanzas)
  | _ => none

/-- The description, if its job has been read. -/
def finish (parts : Parts) : Option Description :=
  parts.1.map fun job => ⟨job, parts.2.getD []⟩

theorem take_unknown {key : String} (hjob : key ≠ "job") (hstanzas : key ≠ "stanzas")
    (value : Reading) (parts : Parts) : take key value parts = none := by
  unfold take
  split <;> first | rfl | contradiction

theorem take_job_stanzas (r r' : Reading) (parts : Parts) :
    (take "job" r parts).bind (take "stanzas" r') =
      (take "stanzas" r' parts).bind (take "job" r) := by
  obtain ⟨job, stanzas⟩ := parts
  cases hjob : r.decodeText.toOption <;> cases hstanzas : (Node.decodeList r').toOption <;>
    cases job <;> cases stanzas <;> simp [take, hjob, hstanzas]

theorem take_commutes : Members.Commutes take := by
  have hunknown : ∀ k k' r r' parts, k ≠ "job" → k ≠ "stanzas" →
      (take k r parts).bind (take k' r') = (take k' r' parts).bind (take k r) := by
    intro k k' r r' parts hjob hstanzas
    have hnone := take_unknown hjob hstanzas r
    rw [hnone, Option.bind_none]
    cases take k' r' parts with
    | none => rfl
    | some parts' => exact (hnone parts').symm
  intro k k' r r' parts hne
  by_cases hk : k = "job" ∨ k = "stanzas"
  · by_cases hk' : k' = "job" ∨ k' = "stanzas"
    · rcases hk with rfl | rfl <;> rcases hk' with rfl | rfl
      · exact absurd rfl hne
      · exact take_job_stanzas r r' parts
      · exact (take_job_stanzas r' r parts).symm
      · exact absurd rfl hne
    · rw [not_or] at hk'
      exact (hunknown k' k r' r parts hk'.1 hk'.2).symm
  · rw [not_or] at hk
    exact hunknown k k' r r' parts hk.1 hk.2

/-- The members of a description are taken one after the other. -/
theorem toOption_decodeMembers : ∀ (ms : Members) (parts : Parts),
    (decodeMembers parts.1 parts.2 ms).toOption = (ms.gather take parts).bind finish
  | .close, parts => by
    obtain ⟨job, stanzas⟩ := parts
    cases job <;> rfl
  | .broken, _ | .member none _ _, _ => rfl
  | .member (some key) value tail, parts => by
    have ih := toOption_decodeMembers tail
    obtain ⟨job, stanzas⟩ := parts
    unfold decodeMembers
    split
    case h_1 heq | h_2 heq | h_3 heq => cases heq
    case h_4 heq =>
      cases heq
      cases job with
      | some job => rfl
      | none =>
        show (value.decodeText >>= _).toOption = ((value.decodeText.toOption.map _).bind _).bind _
        cases value.decodeText with
        | error why => rfl
        | ok job => exact ih (some job, stanzas)
    case h_5 heq =>
      cases heq
      cases stanzas with
      | some stanzas => rfl
      | none =>
        show (Node.decodeList value >>= _).toOption =
          (((Node.decodeList value).toOption.map _).bind _).bind _
        cases Node.decodeList value with
        | error why => rfl
        | ok ns => exact ih (job, some ns)
    case h_6 hjob hstanzas heq =>
      cases heq
      rw [Members.gather, take_unknown hjob hstanzas]
      rfl

end Description

/-! ## What is decoded of reordered members -/

/-- The same is decoded of two readings of a part. -/
def Reading.Alike : Region → Reading → Reading → Prop
  | .description, r, s => (Description.decode r).toOption = (Description.decode s).toOption
  | .nodes, r, s => (Node.decodeList r).toOption = (Node.decodeList s).toOption
  | .node, r, s => (Node.decode r).toOption = (Node.decode s).toOption
  | .field, r, s => r.decodeJson.toOption = s.decodeJson.toOption
  | .fixed, r, s => r = s

/-- The same is decoded of the items of two arrays. -/
def Items.Alike : Region → Items → Items → Prop
  | .node, xs, ys => (Node.decodeItems xs).toOption = (Node.decodeItems ys).toOption
  | .field, xs, ys => (Reading.decodeJsonItems xs).toOption = (Reading.decodeJsonItems ys).toOption
  | .fixed, xs, ys => xs = ys
  -- No item of an array is a description or a list of nodes.
  | .description, _, _ | .nodes, _, _ => True

/-- The same is taken of the members of two objects, whatever stands before them. -/
def Members.Alike : Region → Members → Members → Prop
  | .description, ms, ns => ∀ d, ms.gather Description.take d = ns.gather Description.take d
  | .node, ms, ns => ∀ d, ms.gather NodeForm.take d = ns.gather NodeForm.take d
  | .field, ms, ns => ∀ d, ms.gather Reading.takeJson d = ns.gather Reading.takeJson d
  -- Objects are refused as lists of nodes, and elsewhere nothing is reordered.
  | .nodes, _, _ | .fixed, _, _ => True

theorem Reading.Alike.refl (region : Region) (r : Reading) : Reading.Alike region r r := by
  cases region <;> rfl

theorem Items.Alike.refl (region : Region) (xs : Items) : Items.Alike region xs xs := by
  cases region <;> first | rfl | trivial

theorem Members.Alike.refl (region : Region) (ms : Members) : Members.Alike region ms ms := by
  cases region <;> first | exact fun _ => rfl | trivial

variable {region : Region}

theorem Items.Alike.array {xs ys : Items} (h : Items.Alike region.item xs ys) :
    Reading.Alike region (.array xs) (.array ys) := by
  cases region with
  | nodes => exact h
  | field =>
    show ((Reading.decodeJsonItems xs).map _).toOption =
      ((Reading.decodeJsonItems ys).map _).toOption
    rw [toOption_map, toOption_map, h]
  | description | node | fixed =>
    cases (h : xs = ys)
    exact .refl _ _

theorem Reading.Alike.item {r s : Reading} {xs ys : Items} (head : Reading.Alike region r s)
    (tail : Items.Alike region xs ys) : Items.Alike region (.item r xs) (.item s ys) := by
  cases region with
  | node =>
    show (Node.decodeItems (.item r xs)).toOption = (Node.decodeItems (.item s ys)).toOption
    simp only [Node.decodeItems, toOption_bind]
    rw [head, tail]
  | field =>
    show (Reading.decodeJsonItems (.item r xs)).toOption =
      (Reading.decodeJsonItems (.item s ys)).toOption
    simp only [Reading.decodeJsonItems, toOption_bind]
    rw [head, tail]
  | fixed =>
    cases (head : r = s)
    cases (tail : xs = ys)
    rfl
  | description | nodes => trivial

theorem Members.Alike.object {ms ns ps : Members} (h : Members.Alike region ms ns)
    (free : region ≠ .fixed) (order : ns.Permuted ps) :
    Reading.Alike region (.object ms) (.object ps) := by
  cases region with
  | description =>
    show (Description.decodeMembers none none ms).toOption =
      (Description.decodeMembers none none ps).toOption
    rw [Description.toOption_decodeMembers ms (none, none),
      Description.toOption_decodeMembers ps (none, none), h,
      order.gather_eq Description.take_commutes]
  | nodes => rfl
  | node =>
    show (Node.decodeMembers {} ms).toOption = (Node.decodeMembers {} ps).toOption
    rw [Node.toOption_decodeMembers, Node.toOption_decodeMembers, h,
      order.gather_eq NodeForm.take_commutes]
  | field =>
    show ((Reading.decodeJsonMembers [] ms).map _).toOption =
      ((Reading.decodeJsonMembers [] ps).map _).toOption
    rw [toOption_map, toOption_map, Reading.toOption_decodeJsonMembers,
      Reading.toOption_decodeJsonMembers, h, order.gather_eq Reading.takeJson_commutes]
  | fixed => exact absurd rfl free

/-- The same is decoded of a member of a node. -/
theorem NodeForm.Filling.of?_congr {key : String} {r s : Reading}
    (h : Reading.Alike (Region.node.member (some key)) r s) : of? key r = of? key s := by
  by_cases hchildren : key = "children"
  · subst hchildren
    have h' : (Node.decodeList r).toOption = (Node.decodeList s).toOption := h
    exact congrArg (Option.map children) h'
  · by_cases hshared : key ∈ Node.sharedKeys
    · have hfixed : Region.node.member (some key) = .fixed := by
        simp [Region.member, hchildren, hshared]
      rw [hfixed] at h
      rw [(h : r = s)]
    · have hfield : Region.node.member (some key) = .field := by
        simp [Region.member, hchildren, hshared]
      rw [hfield] at h
      have h' : r.decodeJson.toOption = s.decodeJson.toOption := h
      simp only [Node.sharedKeys, List.mem_cons, List.not_mem_nil, or_false, not_or] at hshared
      unfold of?
      split <;> simp_all

theorem Description.take_congr {key : String} {r s : Reading}
    (h : Reading.Alike (Region.description.member (some key)) r s) : take key r = take key s := by
  by_cases hstanzas : key = "stanzas"
  · subst hstanzas
    have h' : (Node.decodeList r).toOption = (Node.decodeList s).toOption := h
    funext parts
    simp only [take, h']
  · have hfixed : Region.description.member (some key) = .fixed := by
      simp [Region.member, hstanzas]
    rw [hfixed] at h
    rw [(h : r = s)]

theorem Reading.Alike.member {key : Option String} {r s : Reading} {ms ns : Members}
    (value : Reading.Alike (region.member key) r s) (tail : Members.Alike region ms ns) :
    Members.Alike region (.member key r ms) (.member key s ns) := by
  cases key with
  | none => cases region <;> first | exact fun _ => rfl | trivial
  | some key =>
    cases region with
    | description =>
      intro parts
      rw [Members.gather, Members.gather, Description.take_congr value]
      exact congrArg _ (funext tail)
    | node =>
      intro d
      rw [Members.gather, Members.gather, NodeForm.take, NodeForm.take,
        NodeForm.Filling.of?_congr value]
      exact congrArg _ (funext tail)
    | field =>
      intro before
      have hvalue : r.decodeJson.toOption = s.decodeJson.toOption := value
      rw [Members.gather, Members.gather, Reading.takeJson, Reading.takeJson, hvalue]
      exact congrArg _ (funext tail)
    | nodes | fixed => trivial

mutual
/-- **The same is decoded of a part and of the part reordered.** -/
theorem Reading.Reordered.alike : ∀ {region : Region} {r s : Reading},
    Reading.Reordered region r s → Reading.Alike region r s
  | _, _, _, .same region r => .refl region r
  | _, _, _, .array items => (Items.Reordered.alike items).array
  | _, _, _, .object free inside order => (Members.Reordered.alike inside).object free order
theorem Items.Reordered.alike : ∀ {region : Region} {xs ys : Items},
    Items.Reordered region xs ys → Items.Alike region xs ys
  | _, _, _, .same region xs => .refl region xs
  | _, _, _, .item head tail => (Reading.Reordered.alike head).item (Items.Reordered.alike tail)
theorem Members.Reordered.alike : ∀ {region : Region} {ms ns : Members},
    Members.Reordered region ms ns → Members.Alike region ms ns
  | _, _, _, .same region ms => .refl region ms
  | _, _, _, .member _ value tail =>
    (Reading.Reordered.alike value).member (Members.Reordered.alike tail)
end

/-! ## Texts -/

namespace Description

/-- A description in either of its forms, with its members in another order. -/
inductive Reorders : Reading → Reading → Prop
  | object {r s : Reading} (h : Reading.Reordered .description r s) : Reorders r s
  | array (job : Reading) {r s : Reading} (rest : Items) (h : Reading.Reordered .nodes r s) :
    Reorders (.array (.item job (.item r rest))) (.array (.item job (.item s rest)))

theorem Reorders.limit {r s : Reading} (h : Reorders r s) (depth : Nat) :
    Reorders (r.limit depth) (s.limit depth) := by
  cases h with
  | object h => exact .object (h.limit depth)
  | array job rest h =>
    cases depth with
    | zero => exact .object (.same .description _)
    | succ depth => exact .array (job.limit depth) (rest.limit depth) (h.limit depth)

theorem Reorders.alike {r s : Reading} (h : Reorders r s) :
    (decode r).toOption = (decode s).toOption := by
  cases h with
  | object h => exact h.alike
  | @array job r s rest h =>
    have hnodes : (Node.decodeList r).toOption = (Node.decodeList s).toOption := h.alike
    show (decodeItems (.item job (.item r rest))).toOption =
      (decodeItems (.item job (.item s rest))).toOption
    simp only [decodeItems, toOption_bind]
    rw [hnodes]

/-- Two texts that differ in the order of members only, outside the values of nodes. -/
def Reordered (s t : String) : Prop :=
  Reorders (Reading.ofText s).1 (Reading.ofText t).1 ∧ (Reading.ofText s).2 = (Reading.ofText t).2

/-- **The order of members makes no difference.**  Either both texts are read as the same
description, which is rendered in the same way, or neither of them is read. -/
theorem member_order_irrelevant {s t : String} (h : Reordered s t) :
    (∀ d, parse s = .ok d ↔ parse t = .ok d) ∧
      ∀ registry, (rendered registry s).toOption = (rendered registry t).toOption := by
  obtain ⟨hread, halone⟩ := h
  have hdecode := (hread.limit maxDepth).alike
  have hparse : (parse s).toOption = (parse t).toOption := by
    unfold parse JobFile.parse parseReading
    simp only [toOption_bind]
    rw [hdecode, halone]
  refine ⟨fun d => ok_iff_of_toOption_eq hparse d, fun registry => ?_⟩
  rw [rendered, rendered, toOption_map, toOption_map, hparse]

/-- A description with two settings that a group does not take. -/
def shuffled : String :=
  "\x7b\"stanzas\":[\x7b\"extra\":\x7b\"b\":true,\"a\":null\x7d,\"name\":\"g\",\"count\":\"two\","
    ++ "\"stanza\":\"group\"\x7d],\"job\":\"j\"\x7d"

/-- The same with its members the other way round. -/
def ordered : String :=
  "\x7b\"job\":\"j\",\"stanzas\":[\x7b\"stanza\":\"group\",\"count\":\"two\",\"name\":\"g\","
    ++ "\"extra\":\x7b\"a\":null,\"b\":true\x7d\x7d]\x7d"

/-- The group of the first text. -/
def shuffledGroup : Members :=
  .member (some "extra")
    (.object (.member (some "b") (.bool true) (.member (some "a") .null .close)))
    (.member (some "name") (.string "g") (.member (some "count") (.string "two")
      (.member (some "stanza") (.string "group") .close)))

/-- The group of the second text. -/
def orderedGroup : Members :=
  .member (some "stanza") (.string "group") (.member (some "count") (.string "two")
    (.member (some "name") (.string "g") (.member (some "extra")
      (.object (.member (some "a") .null (.member (some "b") (.bool true) .close))) .close)))

theorem ofText_shuffled : Reading.ofText shuffled =
    (.object (.member (some "stanzas") (.array (.item (.object shuffledGroup) .close))
      (.member (some "job") (.string "j") .close)), true) := by cbv

theorem ofText_ordered : Reading.ofText ordered =
    (.object (.member (some "job") (.string "j")
      (.member (some "stanzas") (.array (.item (.object orderedGroup) .close)) .close)), true) := by
  cbv

/-- Members the other way round. -/
theorem permuted_of_reverse {ms ns : Members} (h : ns.entries = ms.entries.reverse)
    (hclosed : ms.closed = ns.closed) (hkeys : ms.keys.Nodup) : ms.Permuted ns :=
  ⟨h ▸ (List.reverse_perm _).symm, hclosed, hkeys⟩

theorem group_reordered :
    Reading.Reordered .node (.object shuffledGroup) (.object orderedGroup) := by
  have hextra : Reading.Reordered .field
      (.object (.member (some "b") (.bool true) (.member (some "a") .null .close)))
      (.object (.member (some "a") .null (.member (some "b") (.bool true) .close))) :=
    .object nofun (.same _ _) (permuted_of_reverse rfl rfl (by decide))
  exact .object nofun (.member (some "extra") hextra (.same _ _))
    (permuted_of_reverse rfl rfl (by decide))

theorem shuffled_reordered : Reordered shuffled ordered := by
  have hgroups : Reading.Reordered .nodes (.array (.item (.object shuffledGroup) .close))
      (.array (.item (.object orderedGroup) .close)) :=
    .array (.item group_reordered (.same _ _))
  rw [Reordered, ofText_shuffled, ofText_ordered]
  exact ⟨.object (.object nofun (.member (some "stanzas") hgroups (.same _ _))
    (permuted_of_reverse rfl rfl (by decide))), rfl⟩

theorem member_order_irrelevant_shuffled :
    Reordered shuffled ordered ∧ (∀ d, parse shuffled = .ok d ↔ parse ordered = .ok d) ∧
      (∀ registry,
        (rendered registry shuffled).toOption = (rendered registry ordered).toOption) ∧
      (rendered {} shuffled).toOption = some (.error (.refused (.invalidOptions "group"
        (.mismatch (.invalidType (.text "two") .integer))))) := by
  obtain ⟨hparse, hrendered⟩ := member_order_irrelevant shuffled_reordered
  refine ⟨shuffled_reordered, hparse, hrendered, ?_⟩
  rw [rendered, parse, JobFile.parse, ofText_shuffled]
  rfl

end Description

end JobFile
