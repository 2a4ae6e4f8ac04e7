import Mathlib.Data.List.Chain
import Mathlib.Logic.Relation
import Storyboard.Proofs.Timeline.Course
import Storyboard.Proofs.Timeline.Inputs
/-!
# The diagnosis of what is stuck

Each entity left waits for one anchor, which has one owner at most, so the walk from an entity is
settled. It finds a loop that is one (`follow?_isLoop`), and if it finds none the entity leads
into no loop (`settles_of_follow?_eq_none`). What is left without a loop ends in an anchor that
nothing owns (`exists_isUnowned`).
-/
namespace Storyboard.Plan

variable {plan : Plan} {waiting ahead : Waiting} {path : List Nat} {node : Nat}

/-- Whether one entity waits for an anchor that another one owns. -/
def WaitsOn (plan : Plan) (waiting : Waiting) (i j : Nat) : Prop :=
  ∃ anchor, (i, anchor) ∈ waiting ∧ plan.Owns j anchor i

/-- Whether the entity at an index has a name. -/
def IsNamed (plan : Plan) (index : Nat) (id : String) : Prop :=
  plan.items[index]?.map Item.id = some id

/-- Whether the entity of one name waits for an anchor that the entity of another one owns. -/
def NameWaitsOn (plan : Plan) (waiting : Waiting) (id owner : String) : Prop :=
  ∃ i j, plan.IsNamed i id ∧ plan.IsNamed j owner ∧ plan.WaitsOn waiting i j

/-- Whether a list is a loop: each entry waits for the next one, and the last one is the first one
again. -/
structure IsLoop {α : Type} (waits : α → α → Prop) (cycle : List α) : Prop where
  /-- There are two at least. -/
  length : 2 ≤ cycle.length
  /-- The last one is the first one. -/
  closed : cycle.head? = cycle.getLast?
  /-- Each waits for the next one. -/
  chain : cycle.IsChain waits

/-! ## The walk -/

/-- What is kept when the first edge of an entity is taken away. -/
theorem mem_eraseP_of_ne {edge : Nat × Anchor} (member : edge ∈ ahead) (other : edge.1 ≠ node) :
    edge ∈ ahead.eraseP (·.1 == node) := by
  refine (List.mem_eraseP_of_neg ?_).mpr member
  rwa [beq_iff_eq]

/-- The edge that is found for an entity is one of its own. -/
theorem mem_of_find?_node {i : Nat} {anchor : Anchor}
    (found : ahead.find? (·.1 == node) = some (i, anchor)) : (node, anchor) ∈ ahead := by
  have own := List.find?_some found
  rw [beq_iff_eq] at own
  rw [← own]
  exact List.mem_of_find?_eq_some found

/-- What a path holds from an entity on begins with it. -/
theorem dropWhile_eq_cons (passed : node ∈ path) :
    ∃ rest, path.dropWhile (· != node) = node :: rest := by
  induction path with
  | nil => cases passed
  | cons first rest ih =>
    rw [List.dropWhile_cons]
    by_cases same : first = node
    · rw [if_neg (by simp [same]), same]
      exact ⟨rest, rfl⟩
    · rw [if_pos (by simp [same])]
      exact ih ((List.mem_cons.mp passed).resolve_left (Ne.symm same))

/-- What a walk finds is a loop, if each entity on the path behind waits for the next one. -/
theorem follow?_isLoop (unique : plan.HasUniqueNames) (part : ∀ edge ∈ ahead, edge ∈ waiting)
    (chain : (path ++ [node]).IsChain (plan.WaitsOn waiting)) {cycle : List Nat}
    (found : plan.follow? ahead path node = some cycle) :
    IsLoop (plan.WaitsOn waiting) cycle := by
  fun_induction follow? plan ahead path node with
  | case1 ahead path node i anchor here next owner ih =>
    refine ih (fun edge member => part edge (List.mem_of_mem_eraseP member)) ?_ found
    rw [List.isChain_append]
    refine ⟨chain, List.isChain_singleton _, ?_⟩
    intro last isLast first isFirst
    simp only [List.getLast?_append, List.getLast?_singleton, Option.some_or, Option.mem_def,
      Option.some.injEq, List.head?_cons] at isLast isFirst
    subst isLast isFirst
    exact ⟨anchor, part _ (mem_of_find?_node here), unique.owner?_eq_some.mp owner⟩
  | case2 => cases found
  | case3 ahead path node here passed =>
    cases found
    obtain ⟨rest, back⟩ := dropWhile_eq_cons (List.contains_iff_mem.mp passed)
    have suffix : path.dropWhile (· != node) ++ [node] <:+ path ++ [node] := by
      obtain ⟨before, split⟩ := List.dropWhile_suffix (· != node) (l := path)
      exact ⟨before, by rw [← List.append_assoc, split]⟩
    refine ⟨?_, ?_, chain.suffix suffix⟩
    · rw [back, List.length_append, List.length_cons, List.length_singleton]
      omega
    · rw [back, List.getLast?_append, List.getLast?_singleton]
      rfl
  | case4 => cases found

/-- Whether an entity leads into no loop: every walk from it comes to an end. -/
def Settles (plan : Plan) (waiting : Waiting) (node : Nat) : Prop :=
  Acc (fun j i => plan.WaitsOn waiting i j) node

/-- Where a walk finds no loop, its entity leads into none, if all that wait lie ahead or on the
path behind. -/
theorem settles_of_follow?_eq_none (unique : plan.HasUniqueNames)
    (distinct : (waiting.map (·.1)).Nodup) (part : ∀ edge ∈ ahead, edge ∈ waiting)
    (covered : ∀ edge ∈ waiting, edge ∈ ahead ∨ edge.1 ∈ path)
    (found : plan.follow? ahead path node = none) : plan.Settles waiting node := by
  -- An entity has one edge at most, and its anchor one owner at most.
  have single : ∀ {i anchor other}, (i, anchor) ∈ waiting → (i, other) ∈ waiting →
      anchor = other := by
    intro i anchor other first second
    exact (Prod.mk.inj (List.inj_on_of_nodup_map distinct first second rfl)).2
  fun_induction follow? plan ahead path node with
  | case1 ahead path node i anchor here next owner ih =>
    have edge := part _ (mem_of_find?_node here)
    refine Acc.intro _ fun j waits => ?_
    obtain ⟨other, edgeToo, owns⟩ := waits
    cases single edge edgeToo
    cases unique.owner_eq owns (unique.owner?_eq_some.mp owner)
    refine ih (fun edge member => part edge (List.mem_of_mem_eraseP member)) ?_ found
    intro edge member
    by_cases own : edge.1 = node
    · exact .inr (by simp [own])
    · rcases covered edge member with ahead | behind
      · exact .inl (mem_eraseP_of_ne ahead own)
      · exact .inr (List.mem_append_left _ behind)
  | case2 ahead path node i anchor here unowned =>
    have edge := part _ (mem_of_find?_node here)
    refine Acc.intro _ fun j waits => ?_
    obtain ⟨other, edgeToo, owns⟩ := waits
    cases single edge edgeToo
    exact absurd owns (unique.owner?_eq_none.mp unowned j)
  | case3 => cases found
  | case4 ahead path node here passed =>
    refine Acc.intro _ fun j waits => ?_
    obtain ⟨anchor, edge, _⟩ := waits
    rcases covered _ edge with ahead | behind
    · have absent := List.find?_eq_none.mp here _ ahead
      simp at absent
    · exact absurd (List.contains_iff_mem.mpr behind) passed

/-- An entity that leads into no loop is on none. -/
theorem Settles.not_loop (settles : plan.Settles waiting node) :
    ¬ Relation.TransGen (plan.WaitsOn waiting) node node := by
  induction settles with
  | intro node _ ih =>
    intro loop
    obtain ⟨next, first, rest⟩ := Relation.TransGen.head'_iff.mp loop
    exact ih next first (Relation.TransGen.tail' rest first)

section Loop

variable {α β : Type} {waits : α → α → Prop} {cycle : List α}

/-- A loop leads from its first entry back to it. -/
theorem IsLoop.transGen (loop : IsLoop waits cycle) : ∃ i, Relation.TransGen waits i i := by
  obtain ⟨length, closed, chain⟩ := loop
  match cycle, length with
  | first :: second :: rest, _ =>
    obtain ⟨edge, behind⟩ := List.isChain_cons_cons.mp chain
    refine ⟨first, Relation.TransGen.head' edge ?_⟩
    refine List.relationReflTransGen_of_exists_isChain_cons rest behind ?_
    rw [List.head?_cons, List.getLast?_eq_some_getLast (by simp), Option.some.injEq] at closed
    exact (List.getLast_cons _).symm.trans closed.symm

/-- A loop is one under other names, if what waits does so under its name. -/
theorem IsLoop.map {named : β → β → Prop} (loop : IsLoop waits cycle) (name : α → β)
    (keeps : ∀ i j, waits i j → named (name i) (name j)) : IsLoop named (cycle.map name) := by
  refine ⟨?_, ?_, ?_⟩
  · rw [List.length_map]
    exact loop.length
  · rw [List.head?_map, List.getLast?_map, loop.closed]
  · rw [List.isChain_map]
    exact loop.chain.imp keeps

end Loop

/-! ## The diagnosis -/

/-- Where something waits and leads into no loop, some anchor waited for belongs to nothing left. -/
theorem exists_isUnowned (unique : plan.HasUniqueNames) (nonempty : waiting ≠ [])
    (settles : ∀ edge ∈ waiting, plan.Settles waiting edge.1) :
    ∃ edge ∈ waiting, plan.isUnowned waiting edge = true := by
  by_contra none_unowned
  have owned : ∀ edge ∈ waiting, ∃ j, plan.owner? edge.2 edge.1 = some j ∧
      ∃ other ∈ waiting, other.1 = j := by
    intro edge member
    have here : ¬ plan.isUnowned waiting edge = true := fun free =>
      none_unowned ⟨edge, member, free⟩
    unfold isUnowned at here
    cases found : plan.owner? edge.2 edge.1 with
    | none => simp [found] at here
    | some j =>
      refine ⟨j, rfl, ?_⟩
      simpa [found] using here
  -- Every owner waits in its turn, so walks do not end.
  have endless : ∀ node, plan.Settles waiting node → ∀ edge ∈ waiting, edge.1 ≠ node := by
    intro node settled
    induction settled with
    | intro node _ ih =>
      rintro edge member rfl
      obtain ⟨j, found, other, memberToo, same⟩ := owned edge member
      exact ih j ⟨edge.2, member, unique.owner?_eq_some.mp found⟩ other memberToo same
  obtain ⟨edge, rest, rfl⟩ := List.exists_cons_of_ne_nil nonempty
  exact endless edge.1 (settles edge List.mem_cons_self) edge List.mem_cons_self rfl

/-- The diagnosis of entities that wait names a loop if there is one, and else an entity whose
anchor belongs to nothing left. -/
theorem diagnose_cases (unique : plan.HasUniqueNames) (nonempty : waiting ≠ [])
    (distinct : (waiting.map (·.1)).Nodup) :
    (∃ cycle, IsLoop (plan.WaitsOn waiting) cycle ∧
      plan.diagnose waiting = .circular (cycle.map plan.nameAt)) ∨
    (∀ edge ∈ waiting, plan.Settles waiting edge.1) ∧ ∃ edge ∈ waiting,
      waiting.find? (plan.isUnowned waiting) = some edge ∧
      plan.isUnowned waiting edge = true ∧
      plan.diagnose waiting = .unresolved (plan.nameAt edge.1) edge.2 := by
  unfold diagnose
  cases walked : plan.firstLoop? waiting with
  | some cycle =>
    obtain ⟨edge, member, found⟩ := List.exists_of_findSome?_eq_some walked
    exact .inl ⟨cycle, follow?_isLoop unique (fun _ inside => inside)
      (List.isChain_singleton _) found, rfl⟩
  | none =>
    have settles : ∀ edge ∈ waiting, plan.Settles waiting edge.1 := fun edge member =>
      settles_of_follow?_eq_none unique distinct (fun _ inside => inside)
        (fun _ inside => .inl inside) (List.findSome?_eq_none_iff.mp walked edge member)
    obtain ⟨edge, member, free⟩ := exists_isUnowned unique nonempty settles
    cases found : waiting.find? (plan.isUnowned waiting) with
    | none => exact absurd free (List.find?_eq_none.mp found edge member)
    | some first =>
      exact .inr ⟨settles, first, List.mem_of_find?_eq_some found, rfl, List.find?_some found,
        rfl⟩

/-- Whether nothing in a plan owns an anchor: its name is unknown, or it is the start of what
stands behind the last entity. -/
def IsOwnerless (plan : Plan) (anchor : Anchor) (reader : Nat) : Prop :=
  (∀ j, ¬ plan.Owns j anchor reader) ∧
    ((∃ name, anchor.ref = some name) ∨
      anchor.kind = .nextStart ∧ reader + 1 = plan.items.length)

variable {drawn : List (List DrawnItem)} {placed : Placed}

/-- An anchor that can be written, is not the origin and has no owner has an unknown name, or is
the start of what stands behind the last entity. -/
theorem isOwnerless_of_written {anchor : Anchor} {reader : Nat}
    (inside : reader < plan.items.length) (written : anchor.IsWritable)
    (foreign : ¬ IsOrigin anchor reader) (unowned : ∀ j, ¬ plan.Owns j anchor reader) :
    plan.IsOwnerless anchor reader := by
  refine ⟨unowned, ?_⟩
  rcases anchor with ⟨kind, ref⟩
  cases kind with
  | sceneStart | sceneEnd | cueStart | markStart => exact .inl written
  | prevStart | prevEnd =>
    cases reader with
    | zero => exact absurd (.inr ⟨by simp, rfl⟩) foreign
    | succ before => exact absurd rfl (unowned before)
  | nextStart =>
    refine .inr ⟨rfl, ?_⟩
    by_contra further
    exact unowned (reader + 1) ⟨rfl, by omega⟩
  | timelineStart => exact absurd (.inl rfl) foreign
  | transition => exact written.elim

/-- The name that is reported of an entity is its own. -/
theorem isNamed_nameAt {index : Nat} (inside : index < plan.items.length) :
    plan.IsNamed index (plan.nameAt index) := by
  unfold IsNamed nameAt
  rw [List.getElem?_eq_getElem inside, Option.map_some]

/-- What waits is an entity. -/
theorem IsStuck.lt_length (stuck : plan.IsStuck drawn placed waiting) {edge : Nat × Anchor}
    (member : edge ∈ waiting) : edge.1 < plan.items.length :=
  ((stuck.pending.mem_iff edge.1).mp (List.mem_map_of_mem member)).1

/-- Where one entity waits for another one, its name waits for the name of that one. -/
theorem IsStuck.nameWaitsOn (stuck : plan.IsStuck drawn placed waiting) {i j : Nat}
    (waits : plan.WaitsOn waiting i j) :
    plan.NameWaitsOn waiting (plan.nameAt i) (plan.nameAt j) := by
  obtain ⟨anchor, member, owns⟩ := waits
  have inside := stuck.lt_length member
  exact ⟨i, j, isNamed_nameAt inside, isNamed_nameAt (owns.lt_length inside),
    anchor, member, owns⟩

/-- An anchor that belongs to nothing left belongs to nothing at all. -/
theorem IsStuck.isOwnerless (drawing : plan.IsDrawing drawn) (unique : plan.HasUniqueNames)
    (faithful : plan.Faithful placed) (stuck : plan.IsStuck drawn placed waiting)
    {edge : Nat × Anchor} (member : edge ∈ waiting)
    (free : plan.isUnowned waiting edge = true) : plan.IsOwnerless edge.2 edge.1 := by
  have waits := stuck.waits edge member
  have inside := stuck.lt_length member
  have unowned : ∀ j, ¬ plan.Owns j edge.2 edge.1 := by
    intro j owns
    have unplaced := place_waits_unplaced drawing unique faithful waits owns
    have pending := (stuck.pending.mem_iff j).mpr ⟨Owns.lt_length inside owns, unplaced⟩
    obtain ⟨other, listed, same⟩ := List.mem_map.mp pending
    unfold isUnowned at free
    rw [unique.owner?_eq_some.mpr owns] at free
    simp only [Bool.not_eq_true', List.any_eq_false, beq_iff_eq] at free
    exact free other listed same
  rcases place_waits_needs drawing unique faithful waits with ⟨j, _, owns⟩ | ⟨named, foreign, _⟩
  · exact absurd owns (unowned j)
  · obtain ⟨item, _, reads⟩ := named
    exact isOwnerless_of_written inside (Item.writable_of_reads reads) foreign unowned

/-- A resolution whose last pass places nothing is stuck, and its error says why. If the owners of
the anchors waited for lead round in a loop, the error lists the names of a loop; else it names an
entity and the anchor that this entity waits for, which nothing owns. So the search for such an
anchor never comes back empty. -/
theorem runDrawn_diagnosis {composition : Composition} {seed : Option Int}
    {estimate : Option (String → Float)}
    (ready : Plan.ofComposition composition seed estimate = .ok plan)
    (drawing : plan.IsDrawing drawn) {events : List Event}
    {outcome : Except ResolveError Timeline} {number deferred : Nat}
    (run : plan.runDrawn drawn [] = (placed, events, outcome))
    (idle : events.getLast? = some (.pass number 0 deferred)) :
    ∃ waiting, plan.IsStuck drawn placed waiting ∧ waiting.length = deferred ∧
      ((∃ i, Relation.TransGen (plan.WaitsOn waiting) i i) →
        ∃ ids, IsLoop (plan.NameWaitsOn waiting) ids ∧ outcome = .error (.circular ids)) ∧
      ((¬ ∃ i, Relation.TransGen (plan.WaitsOn waiting) i i) →
        ∃ index id anchor, (index, anchor) ∈ waiting ∧ plan.IsNamed index id ∧
          plan.IsOwnerless anchor index ∧
          waiting.find? (plan.isUnowned waiting) = some (index, anchor) ∧
          outcome = .error (.unresolved id anchor)) := by
  have unique := hasUniqueNames_of_ready ready
  obtain ⟨reached, ⟨cause, ends, rfl⟩ | ⟨earlier, ends, conclusion, rfl⟩⟩ := runDrawn_course run
  · cases ends with
    -- Of all passes only the last one of a resolution that is stuck places nothing.
    | failed active inside pending fails =>
      exact absurd rfl (active _ (List.mem_of_getLast? idle))
    | @stuck _ last waiting active stuck =>
      rw [List.getLast?_concat, Option.some.injEq, Event.pass.injEq] at idle
      refine ⟨waiting, stuck, idle.2.2, ?_, ?_⟩
      · rintro ⟨i, loop⟩
        rcases diagnose_cases unique stuck.nonempty stuck.pending.distinct with
          ⟨cycle, isLoop, named⟩ | ⟨settles, _⟩
        · exact ⟨_, isLoop.map plan.nameAt fun _ _ => stuck.nameWaitsOn, by rw [named]⟩
        · obtain ⟨next, ⟨anchor, edge, _⟩, _⟩ := Relation.TransGen.head'_iff.mp loop
          exact absurd loop (settles _ edge).not_loop
      · intro loopless
        rcases diagnose_cases unique stuck.nonempty stuck.pending.distinct with
          ⟨cycle, isLoop, _⟩ | ⟨_, edge, member, first, free, named⟩
        · exact absurd isLoop.transGen loopless
        · exact ⟨edge.1, _, edge.2, member, isNamed_nameAt (stuck.lt_length member),
            stuck.isOwnerless drawing unique (reached.faithful drawing) member free, first,
            by rw [named]⟩
  · cases ends with
    | complete active all =>
      cases outcome with
      | ok timeline =>
        rw [closing, List.getLast?_concat] at idle
        cases idle
      | error cause =>
        rw [closing, List.append_nil] at idle
        exact absurd rfl (active _ (List.mem_of_getLast? idle))

/-- What a resolution that is stuck reports: the names of a loop, or else the name of an entity and
the anchor that it waits for. -/
def report? : Except ResolveError Timeline → Option (List String ⊕ (String × Anchor))
  | .error (.circular cycle) => some (.inl cycle)
  | .error (.unresolved entity anchor) => some (.inr (entity, anchor))
  | _ => none

/-- A resolution that reports a loop ends in an error that lists it. -/
theorem eq_of_report?_inl {outcome : Except ResolveError Timeline} {cycle : List String}
    (found : report? outcome = some (.inl cycle)) : outcome = .error (.circular cycle) := by
  unfold report? at found
  split at found <;> cases found
  rfl

/-- A resolution that reports an anchor ends in an error that names it. -/
theorem eq_of_report?_inr {outcome : Except ResolveError Timeline} {entity : String}
    {anchor : Anchor} (found : report? outcome = some (.inr (entity, anchor))) :
    outcome = .error (.unresolved entity anchor) := by
  unfold report? at found
  split at found <;> cases found
  rfl

/-- Two marks, each at the place of the other, and a scene that waits for one of them. -/
def crossed : Composition where
  timeline := [
    .scene {
      id := "late"
      time := some { start := some (.expression "mark(one)") }
      items := [.cue { id := "hello", duration := some (.seconds 1.0) }] },
    .mark { id := "one", position := .expression "mark(other)" },
    .mark { id := "other", position := .expression "mark(one)" }]

/-- The composition made ready, where no text takes time. -/
def crossedPlan : Plan := untimed crossed

/-- A mark at the place of a scene that there is not. -/
def adrift : Composition where
  timeline := [
    .mark { id := "here", position := .seconds 1.0 },
    .mark { id := "lost", position := .expression "scene(nowhere).end" }]

/-- The composition made ready, where no text takes time. -/
def adriftPlan : Plan := untimed adrift

/-- Two marks that wait for one another are reported as a loop, and a mark that waits for what
nothing owns is reported with its anchor. -/
theorem crossed_and_adrift_diagnosis :
    (∃ placed events outcome waiting,
      Plan.ofComposition crossed none (some fun _ => 0.0) = .ok crossedPlan ∧
      crossedPlan.runDrawn crossedPlan.drawn [] = (placed, events, outcome) ∧
      events.getLast? = some (.pass 1 0 3) ∧
      crossedPlan.IsStuck crossedPlan.drawn placed waiting ∧ waiting.length = 3 ∧
      IsLoop (crossedPlan.NameWaitsOn waiting) ["one", "other", "one"] ∧
      outcome = .error (.circular ["one", "other", "one"])) ∧
    ∃ placed events outcome waiting,
      Plan.ofComposition adrift none (some fun _ => 0.0) = .ok adriftPlan ∧
      adriftPlan.runDrawn adriftPlan.drawn [] = (placed, events, outcome) ∧
      events.getLast? = some (.pass 2 0 1) ∧
      adriftPlan.IsStuck adriftPlan.drawn placed waiting ∧ waiting.length = 1 ∧
      adriftPlan.IsOwnerless (.sceneEnd "nowhere") 1 ∧
      outcome = .error (.unresolved "lost" (.sceneEnd "nowhere")) := by
  refine ⟨?_, ?_⟩
  · have ready : Plan.ofComposition crossed none (some fun _ => 0.0) = .ok crossedPlan := rfl
    have idle : (crossedPlan.runDrawn crossedPlan.drawn []).2.1.getLast? =
        some (.pass 1 0 3) := by
      decide +kernel
    have reported : report? (crossedPlan.runDrawn crossedPlan.drawn []).2.2 =
        some (.inl ["one", "other", "one"]) := by
      decide +kernel
    rcases run : crossedPlan.runDrawn crossedPlan.drawn [] with ⟨placed, events, outcome⟩
    rw [run] at idle reported
    cases eq_of_report?_inl reported
    obtain ⟨waiting, stuck, length, circular, unresolved⟩ :=
      runDrawn_diagnosis ready (isDrawing_drawn _) run idle
    refine ⟨_, _, _, waiting, ready, rfl, idle, stuck, length, ?_, rfl⟩
    by_cases loop : ∃ i, Relation.TransGen (crossedPlan.WaitsOn waiting) i i
    · obtain ⟨ids, isLoop, same⟩ := circular loop
      cases same
      exact isLoop
    · obtain ⟨_, _, _, _, _, _, _, other⟩ := unresolved loop
      cases other
  · have ready : Plan.ofComposition adrift none (some fun _ => 0.0) = .ok adriftPlan := rfl
    have idle : (adriftPlan.runDrawn adriftPlan.drawn []).2.1.getLast? = some (.pass 2 0 1) := by
      decide +kernel
    have reported : report? (adriftPlan.runDrawn adriftPlan.drawn []).2.2 =
        some (.inr ("lost", .sceneEnd "nowhere")) := by
      decide +kernel
    rcases run : adriftPlan.runDrawn adriftPlan.drawn [] with ⟨placed, events, outcome⟩
    rw [run] at idle reported
    cases eq_of_report?_inr reported
    obtain ⟨waiting, stuck, length, circular, unresolved⟩ :=
      runDrawn_diagnosis ready (isDrawing_drawn _) run idle
    refine ⟨_, _, _, waiting, ready, rfl, idle, stuck, length, ?_, rfl⟩
    by_cases loop : ∃ i, Relation.TransGen (adriftPlan.WaitsOn waiting) i i
    · obtain ⟨_, _, other⟩ := circular loop
      cases other
    · obtain ⟨index, id, anchor, _, named, ownerless, _, same⟩ := unresolved loop
      cases same
      -- Only the second mark has the name that is reported.
      rcases index with _ | _ | behind
      · exact absurd (Option.some.inj named) (by decide)
      · exact ownerless
      · cases named

end Storyboard.Plan
